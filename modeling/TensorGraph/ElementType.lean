/-!
# Element types

The type of a tensor's elements, known or not yet known.  Unknown element
types are written `dynamic` and give way to any other; two different known
types have no common refinement.
-/

namespace TensorGraph

/-- The type of the elements of a tensor; `dynamic` stands for a type that is
not known yet. -/
inductive ElementType where
  | dynamic
  | boolean
  | f16
  | f32
  | f64
  | i8
  | i32
  | i64
  | u8
  deriving DecidableEq, Inhabited

namespace ElementType

/-- Every element type, in the order of declaration. -/
def all : List ElementType :=
  [dynamic, boolean, f16, f32, f64, i8, i32, i64, u8]

def isDynamic (elementType : ElementType) : Bool :=
  elementType = dynamic

def isIntegral : ElementType → Bool
  | i8 | i32 | i64 | u8 => true
  | _ => false

/-- The common refinement of two element types, if there is one. -/
def merge : ElementType → ElementType → Option ElementType
  | dynamic, other => some other
  | this, dynamic => some this
  | this, other => if this = other then some this else none

/-- The spelling used in messages and tables. -/
def text : ElementType → String
  | dynamic => "dynamic"
  | boolean => "boolean"
  | f16 => "f16"
  | f32 => "f32"
  | f64 => "f64"
  | i8 => "i8"
  | i32 => "i32"
  | i64 => "i64"
  | u8 => "u8"

/-- The spelling used in written descriptions. -/
def tag : ElementType → String
  | dynamic => "Dynamic"
  | boolean => "Boolean"
  | f16 => "F16"
  | f32 => "F32"
  | f64 => "F64"
  | i8 => "I8"
  | i32 => "I32"
  | i64 => "I64"
  | u8 => "U8"

def ofTag? (tag : String) : Option ElementType :=
  all.find? (·.tag = tag)

theorem ofTag?_tag (elementType : ElementType) :
    ofTag? elementType.tag = some elementType := by
  cases elementType <;> decide

end ElementType
end TensorGraph
