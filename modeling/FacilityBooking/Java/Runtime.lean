import FacilityBooking.Java.Reflection
import Mathlib.Algebra.Group.Int.Defs

/-!
# The Java runtime the server runs on

What the code takes from the runtime and no document of it fixes is a field of `Jvm`: what `new String(bytes)` makes of bytes
that are not UTF-8, which letters outside ASCII are digits or have an upper case, the texts of the exceptions the runtime
throws itself, the classes on the class path, floating point. The laws are the documented part.
-/

namespace FacilityBooking

/-- A `double`, as its 64 bits. -/
abbrev Double := BitVec 64

namespace Double

/-- `Double.isNaN(d)`: all bits of the exponent are set, and one of the fraction. -/
def isNaN (d : Double) : Bool := decide (d &&& 0x7ff0000000000000 = 0x7ff0000000000000 ∧ d &&& 0x000fffffffffffff ≠ 0)

/-- `Double.doubleToLongBits(d)`: every NaN becomes the same one. -/
def doubleToLongBits (d : Double) : BitVec 64 := if isNaN d then 0x7ff8000000000000 else d

/-- `Double.longBitsToDouble(bits)`. -/
def longBitsToDouble (bits : BitVec 64) : Double := bits

end Double

/-- The exceptions the server's code can meet. -/
inductive JavaException where
  | nullPointer
  | arrayIndexOutOfBounds (index : Int) (length : Nat)
  | negativeArraySize (length : Int)
  | numberFormat (message : Text)
  | illegalArgument (message : Text)
  | checked (message : Text)
  | classNotFound (name : Text)
  | noSuchMethod (className : Text)
  | noSuchField (name : Text)
  | inaccessibleObject (name : Text)
  | classCast

/-- What a Java method returns: a value or the exception it throws. -/
abbrev Java := Except JavaException

/-- The runtime. -/
structure Jvm where
  /-- `new String(bytes)` -/
  newString : Bytes → Text
  newString_getBytes : ∀ s, newString (getBytes s) = s
  /-- `Character.digit(c, 10)`, none for -1 -/
  digit : Char → Option Nat
  digit_ascii : ∀ c : Char, c.toNat < 128 → digit c = if c.isDigit then some (c.toNat - 48) else none
  /-- `s.toUpperCase()` -/
  toUpperCase : Text → Text
  toUpperCase_upper : ∀ s, (∀ c ∈ s, c.isUpper = true) → toUpperCase s = s
  /-- `e.getMessage()` of an exception the runtime words itself -/
  message : JavaException → Option Text
  /-- `Class.forName(name)`, for a name that is not an array's -/
  forName : Text → Option ClassInfo
  forName_requestMessage : forName "Server.RequestMessage".toList = some requestMessageClass
  forName_string : (forName "java.lang.String".toList).isSome = true
  /-- whether a field of the first class may hold a value of the second -/
  isAssignable : JClass → JClass → Bool
  isAssignable_refl : ∀ c, isAssignable c c = true
  isAssignable_string : ∀ c, isAssignable .string c = true → c = .string
  /-- `Double.parseDouble(s)`, none for a `NumberFormatException` -/
  parseDouble : Text → Option Double
  addDouble : Double → Double → Double
  divDouble : Double → Double → Double
  /-- the conversions of an integer to floating point -/
  toDouble : Int → Double
  toFloat : Int → BitVec 32
  /-- `String.format("%.1f", d)` -/
  format1f : Double → Text

/-- `e.getMessage()`. -/
def JavaException.getMessage (Γ : Jvm) : JavaException → Option Text
  | .numberFormat message => some message
  | .illegalArgument message => some message
  | .checked message => some message
  | .classNotFound name => some name
  | e => Γ.message e

/-- Whether there is a class to be the elements of an array class: a primitive type, or a class that is found by its name. -/
def JClass.isLoadable (Γ : Jvm) : JClass → Bool
  | .primitive _ => true
  | .array component => component.isLoadable Γ
  | .object name => decide (name.head? ≠ some '[') && (Γ.forName name).isSome

/-- `DayOfWeek.valueOf(name)`. -/
def DayOfWeek.valueOf (name : Text) : Java DayOfWeek :=
  match DayOfWeek.values.find? (fun d => decide (d.name = name)) with
  | some d => .ok d
  | none => .error (.illegalArgument ("No enum constant java.time.DayOfWeek.".toList ++ name))

/-- `NumberFormatException.forInputString(s)`. -/
def forInputString (s : Text) : JavaException := .numberFormat ("For input string: \"".toList ++ s ++ "\"".toList)

/-- What `Double.parseDouble(s)` throws of a text that is no number, which it has trimmed. -/
def noDouble (s : Text) : JavaException :=
  if trim s = [] then .numberFormat "empty String".toList else forInputString (trim s)

/-- The number digits stand for, after those of `acc`; none when a character is no digit. -/
def parseDigits (Γ : Jvm) : Text → Nat → Option Nat
  | [], acc => some acc
  | c :: cs, acc =>
    match Γ.digit c with
    | some d => parseDigits Γ cs (acc * 10 + d)
    | none => none

/-- A number that `Integer.parseInt(s)` may return: one in the range of `int`. -/
def inIntRange (s : Text) (value : Int) : Java Int :=
  if -2 ^ 31 ≤ value ∧ value < 2 ^ 31 then .ok value else .error (forInputString s)

/-- `Integer.parseInt(s)`: an optional sign and at least one digit, in the range of `int`. -/
def parseInt (Γ : Jvm) (s : Text) : Java Int :=
  match if s.head? = some '-' ∨ s.head? = some '+' then s.tail else s with
  | [] => .error (forInputString s)
  | digits =>
    match parseDigits Γ digits 0 with
    | some n => inIntRange s (if s.head? = some '-' then -n else n)
    | none => .error (forInputString s)

/-- `a[i]` of an array of strings. -/
def getIndex (a : List Text) (i : Nat) : Java Text :=
  match a[i]? with
  | some x => .ok x
  | none => .error (.arrayIndexOutOfBounds i a.length)

/-! ## Facts about the runtime -/

/-- A double that is a number keeps its bits. -/
theorem Double.doubleToLongBits_of_not_isNaN {d : Double} (h : isNaN d = false) : doubleToLongBits d = d := by
  simp [doubleToLongBits, h]

/-- Every day is read back from its name. -/
theorem DayOfWeek.valueOf_name (d : DayOfWeek) : DayOfWeek.valueOf d.name = .ok d := by
  cases d <;> rfl

/-- A name that is read is the name of the day read. -/
theorem DayOfWeek.name_of_valueOf {name : Text} {d : DayOfWeek} (h : DayOfWeek.valueOf name = .ok d) : d.name = name := by
  unfold DayOfWeek.valueOf at h
  split at h
  · rename_i d' hd
    cases h
    simpa using List.find?_some hd
  · cases h

/-! ## A runtime -/

namespace OpenJdk

/-- Bytes that are UTF-8 are decoded; of others, each byte that is not ASCII reads as the replacement character. -/
def newString (bs : Bytes) : Text :=
  match bs.toByteArray.utf8Decode? with
  | some s => s.toList
  | none => bs.map (fun b => if b < 128 then Char.ofNat b.toNat else Char.ofNat 0xFFFD)

theorem newString_getBytes (s : Text) : newString (getBytes s) = s := by
  have h : (getBytes s).toByteArray = s.utf8Encode := rfl
  simp [newString, h]

/-- The digits of ASCII. -/
def digit (c : Char) : Option Nat := if c.isDigit then some (c.toNat - 48) else none

/-- A capital letter is its own upper case. -/
theorem toUpper_of_isUpper {c : Char} (h : c.isUpper = true) : c.toUpper = c := by
  have hupper : c.val ≥ 'A'.val ∧ c.val ≤ 'Z'.val := of_decide_eq_true h
  simp only [ge_iff_le, UInt32.le_iff_toNat_le] at hupper
  unfold Char.toUpper
  split
  · rename_i hlower
    simp only [UInt32.le_iff_toNat_le] at hlower
    simp at hupper hlower
    omega
  · rfl

theorem toUpperCase_upper (s : Text) (h : ∀ c ∈ s, c.isUpper = true) : s.map Char.toUpper = s := by
  induction s with
  | nil => rfl
  | cons c s ih =>
    rw [List.map_cons, ih (fun x hx => h x (List.mem_cons_of_mem c hx)), toUpper_of_isUpper (h c List.mem_cons_self)]

end OpenJdk

/-- A text is told by its bytes. -/
theorem getBytes_injective {s s' : Text} (h : getBytes s = getBytes s') : s = s' := by
  rw [← OpenJdk.newString_getBytes s, h, OpenJdk.newString_getBytes]

/-- The runtime of the server's container on ASCII texts: its classes are `RequestMessage` and the class of strings. Floating
point is left out. -/
def openJdk : Jvm where
  newString := OpenJdk.newString
  newString_getBytes := OpenJdk.newString_getBytes
  digit := OpenJdk.digit
  digit_ascii := fun _ _ => rfl
  toUpperCase := fun s => s.map Char.toUpper
  toUpperCase_upper := OpenJdk.toUpperCase_upper
  message := fun e =>
    match e with
    | .arrayIndexOutOfBounds i _ => some (decimal i)
    | _ => none
  forName := fun name =>
    if name = "Server.RequestMessage".toList then some requestMessageClass
    else if name = "java.lang.String".toList then some ⟨[], false, some []⟩
    else none
  forName_requestMessage := rfl
  forName_string := rfl
  isAssignable := fun c d => decide (c = d)
  isAssignable_refl := fun _ => decide_eq_true rfl
  isAssignable_string := fun _ h => (of_decide_eq_true h).symm
  parseDouble := fun _ => none
  addDouble := fun x _ => x
  divDouble := fun x _ => x
  toDouble := fun _ => 0
  toFloat := fun _ => 0
  format1f := fun _ => []

end FacilityBooking
