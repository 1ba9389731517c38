import FacilityBooking.Java.Text

/-!
# Java classes, values and objects, as reflection shows them

What the serializer sees of a class: its name, its declared fields in declaration order, and the object its no-argument
constructor makes. Values held by fields are nulls, primitives, strings, arrays and references to objects of a heap. Strings and
arrays are values here: the serializer writes them in place and never by handle.
-/

namespace FacilityBooking

/-- The primitive types. -/
inductive Primitive where
  | int | long | double | float | boolean | byte | short | char | void
  deriving DecidableEq, Repr

/-- `java.lang.Class`: a primitive type, an array class, or a class by its name. -/
inductive JClass where
  | primitive (p : Primitive)
  | array (component : JClass)
  | object (name : Text)
  deriving DecidableEq, Repr

/-- `String.class`. -/
def JClass.string : JClass := .object "java.lang.String".toList

/-- The keyword of a primitive type. -/
def Primitive.getName : Primitive → Text
  | .int => "int".toList
  | .long => "long".toList
  | .double => "double".toList
  | .float => "float".toList
  | .boolean => "boolean".toList
  | .byte => "byte".toList
  | .short => "short".toList
  | .char => "char".toList
  | .void => "void".toList

/-- The letter of a primitive type in the name of an array class. -/
def Primitive.descriptor : Primitive → Char
  | .int => 'I'
  | .long => 'J'
  | .double => 'D'
  | .float => 'F'
  | .boolean => 'Z'
  | .byte => 'B'
  | .short => 'S'
  | .char => 'C'
  | .void => 'V'

/-- The name of a class inside the name of an array class. -/
def JClass.descriptor : JClass → Text
  | .primitive p => [p.descriptor]
  | .array c => '[' :: c.descriptor
  | .object name => 'L' :: name ++ [';']

/-- `cls.getName()`. -/
def JClass.getName : JClass → Text
  | .primitive p => p.getName
  | .array c => '[' :: c.descriptor
  | .object name => name

/-- The class a descriptor names. -/
def JClass.ofDescriptor : Text → Option JClass
  | ['I'] => some (.primitive .int)
  | ['J'] => some (.primitive .long)
  | ['D'] => some (.primitive .double)
  | ['F'] => some (.primitive .float)
  | ['Z'] => some (.primitive .boolean)
  | ['B'] => some (.primitive .byte)
  | ['S'] => some (.primitive .short)
  | ['C'] => some (.primitive .char)
  | '[' :: rest => (JClass.ofDescriptor rest).map .array
  | 'L' :: rest => if rest.getLast? = some ';' then some (.object rest.dropLast) else none
  | _ => none

/-- How often `getComponentType()` leads on from a class. -/
def JClass.dimensions : JClass → Nat
  | .array component => component.dimensions + 1
  | _ => 0

/-- The value of a field or of an array element. -/
inductive Value where
  | null
  | int (v : BitVec 32)
  | long (v : BitVec 64)
  | double (bits : BitVec 64)
  | float (bits : BitVec 32)
  | boolean (b : Bool)
  | byte (v : BitVec 8)
  | short (v : BitVec 16)
  | char (v : BitVec 16)
  | string (s : Text)
  | array (component : JClass) (elements : List Value)
  | object (reference : Nat)

/-- The value of a field of type `String`. -/
def Value.ofText : Option Text → Value
  | some s => .string s
  | none => .null

/-- An object: the name of its class and the values of its fields by name. -/
structure Obj where
  className : Text
  fields : List (Text × Value)

/-- `field.get(obj)`. -/
def Obj.get (o : Obj) (name : Text) : Value := (o.fields.lookup name).getD .null

/-- `field.set(obj, value)`, once the value has been found to fit the field. -/
def Obj.set (o : Obj) (name : Text) (v : Value) : Obj :=
  { o with fields := o.fields.map (fun (n, old) => if n = name then (n, v) else (n, old)) }

/-- `java.lang.reflect.Field`. -/
structure Field where
  name : Text
  type : JClass
  isStatic : Bool
  isTransient : Bool
  deriving DecidableEq

/-- A class as reflection shows it: its declared fields, whether `setAccessible(true)` is granted on them, and the fields of the
object its no-argument constructor makes, or none when it has no such constructor it lets the caller use. -/
structure ClassInfo where
  declaredFields : List Field
  accessible : Bool
  newInstance : Option (List (Text × Value))

/-- `Server.RequestMessage`: a request type, a request ID and the data, which the no-argument constructor leaves at their
defaults. -/
def requestMessageClass : ClassInfo where
  declaredFields :=
    [⟨"requestType".toList, .primitive .int, false, false⟩, ⟨"requestID".toList, .primitive .int, false, false⟩,
      ⟨"data".toList, .string, false, false⟩]
  accessible := true
  newInstance := some [("requestType".toList, .int 0), ("requestID".toList, .int 0), ("data".toList, .null)]

end FacilityBooking
