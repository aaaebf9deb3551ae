import TensorGraph.Value.Basic

/-!
# Refusals

Objects say for themselves what it is to be true, to be a number, to be gone through and to be
combined, and classes say what their members are. A refusal is why an object does not do what it is
asked, or why a class cannot be what it says.
-/

namespace TensorGraph

inductive Refusal where
  /-- What is gone through gives an object that has no next item. -/
  | notAnIterator (type : TypeName)
  /-- What an object says of its truth is no truth value. -/
  | notATruth (type : TypeName)
  | notAnInteger (type : TypeName)
  /-- What an object says to stand for is no integer. -/
  | standsForNoInteger (type : TypeName)
  | hashNotInteger
  | negativeLength
  /-- An object stands for an integer beyond the machine word. -/
  | beyondWord (type : TypeName)
  | notComparable (symbol : String) (left right : TypeName)
  /-- What an object gives for its text is none. -/
  | notItsText (name : String) (type : TypeName)
  | notFormatted (type : TypeName)
  | notUnpackable (type : TypeName)
  /-- There are fewer parts than wanted. -/
  | tooFewParts (wanted given : Nat)
  /-- There are more parts than wanted. -/
  | tooManyParts (wanted : Nat)
  /-- Only texts can be written one after the other. -/
  | notAText (position : Nat) (type : TypeName)
  /-- A text begins with texts only. -/
  | notABeginning (type : TypeName)
  /-- A class leaves some of what its members do open. -/
  | abstractClass (className : String) (methods : List String)
  | fieldNotText (type : TypeName)
  | fieldNotName
  /-- A field is an attribute of the class as well. -/
  | fieldShared (name : String)
  | secondDictionary
  | secondWeakReference
  | qualifiedNameNotText (type : TypeName)
  /-- A class is told where it stands by something else than a place. -/
  | cellNotPlace (type : TypeName)
  | nullInName
  | basesNotTuple (className : String) (type : TypeName)
  | noBases (className : String)
  | baseNotClass (className : String) (type : TypeName)
  | cyclicBases
  /-- Members of the class are laid out in another way than those of its new base. -/
  | otherBase (className : String)
  /-- An object that stands for an attribute cannot be set. -/
  | noSetter
  /-- An object cannot be told the name under which a class has it. -/
  | namingFailed (type : TypeName) (name className : String)
  | classNotSubscriptable (className : String)
  | tupleIndex (type : TypeName)
  | textIndex (type : TypeName)
  /-- A container has no item at a position. -/
  | noItemAt (container : String)
  /-- A number of a fixed width has no items. -/
  | scalarIndex
  | unexpectedName (callee name : String)
  /-- A class keeps its members out of grids. -/
  | notElementwise (type : TypeName)
  /-- What an object has for its elements in memory is none. -/
  | notElements
  /-- What an object has for a description of its elements is no dictionary. -/
  | notDescription
  /-- A description of elements leaves out their type. -/
  | noElementType
  | elementTypeNotText
  | unknownElementType (text : String)
  /-- A description of elements tells where they are but not how many. -/
  | noElementShape
  | elementShapeNotTuple
  /-- Something else than elements stands in their place. -/
  | notBytes (type : TypeName)
  /-- The place of elements is told by a place and a mark. -/
  | notAPlace
  | placeNotWhole
  /-- A single object stands for many elements. -/
  | singleForMany
  /-- An object does not stand for a whole number. -/
  | notWhole (type : TypeName)
  /-- An object does not stand for a floating number. -/
  | notFloating (type : TypeName)
  /-- What an object gives for a number is none. -/
  | notItsNumber (name kind : String) (type : TypeName)
  | notARow
  /-- What an object gives for a grid is none. -/
  | notGrid
deriving Repr, Inhabited

namespace Refusal

def message : Refusal → String
  | .notAnIterator type => "iter() returned non-iterator of type '" ++ type.within 100 ++ "'"
  | .notATruth type => "__bool__ should return bool, returned " ++ type.qualified
  | .notAnInteger type => "'" ++ type.within 200 ++ "' object cannot be interpreted as an integer"
  | .standsForNoInteger type => "__index__ returned non-int (type " ++ type.within 200 ++ ")"
  | .hashNotInteger => "__hash__ method should return an integer"
  | .negativeLength => "__len__() should return >= 0"
  | .beyondWord type => "cannot fit '" ++ type.within 200 ++ "' into an index-sized integer"
  | .notComparable symbol left right =>
    "'" ++ symbol ++ "' not supported between instances of '" ++ left.within 100 ++ "' and '" ++
      right.within 100 ++ "'"
  | .notItsText name type => name ++ " returned non-string (type " ++ type.within 200 ++ ")"
  | .notFormatted type => "__format__ must return a str, not " ++ type.within 200
  | .notUnpackable type => "cannot unpack non-iterable " ++ type.within 200 ++ " object"
  | .tooFewParts wanted given =>
    "not enough values to unpack (expected " ++ toString wanted ++ ", got " ++ toString given ++ ")"
  | .tooManyParts wanted => "too many values to unpack (expected " ++ toString wanted ++ ")"
  | .notAText position type =>
    "sequence item " ++ toString position ++ ": expected str instance, " ++ type.within 80 ++
      " found"
  | .notABeginning type =>
    "startswith first arg must be str or a tuple of str, not " ++ type.within 100
  | .abstractClass className methods =>
    "Can't instantiate abstract class " ++ className ++ " with abstract method" ++
      (if 1 < methods.length then "s " else " ") ++ ", ".intercalate methods
  | .fieldNotText type => "__slots__ items must be strings, not '" ++ type.within 200 ++ "'"
  | .fieldNotName => "__slots__ must be identifiers"
  | .fieldShared name => Text.quote name ++ " in __slots__ conflicts with class variable"
  | .secondDictionary => "__dict__ slot disallowed: we already got one"
  | .secondWeakReference =>
    "__weakref__ slot disallowed: either we already got one, or __itemsize__ != 0"
  | .qualifiedNameNotText type => "type __qualname__ must be a str, not " ++ type.qualified
  | .cellNotPlace type =>
    "__classcell__ must be a nonlocal cell, not <class '" ++ type.qualified ++ "'>"
  | .nullInName => "type name must not contain null characters"
  | .basesNotTuple className type =>
    "can only assign tuple to " ++ className ++ ".__bases__, not " ++ type.qualified
  | .noBases className => "can only assign non-empty tuple to " ++ className ++ ".__bases__, not ()"
  | .baseNotClass className type =>
    className ++ ".__bases__ must be tuple of classes, not '" ++ type.qualified ++ "'"
  | .cyclicBases => "a __bases__ item causes an inheritance cycle"
  | .otherBase className =>
    "__bases__ assignment: '" ++ className ++ "' deallocator differs from 'object'"
  | .noSetter => "__set__"
  | .namingFailed type name className =>
    "Error calling __set_name__ on '" ++ type.within 100 ++ "' instance " ++ Text.quote name ++
      " in '" ++ Text.shortened 100 className ++ "'"
  | .classNotSubscriptable className =>
    "type '" ++ Text.shortened 200 className ++ "' is not subscriptable"
  | .tupleIndex type => "tuple indices must be integers or slices, not " ++ type.within 200
  | .textIndex type => "string indices must be integers, not '" ++ type.within 200 ++ "'"
  | .noItemAt container => container ++ " index out of range"
  | .scalarIndex => "invalid index to scalar variable."
  | .unexpectedName callee name =>
    callee ++ "() got an unexpected keyword argument " ++ Text.quote name
  | .notElementwise type =>
    "operand '" ++ type.qualified ++ "' does not support ufuncs (__array_ufunc__=None)"
  | .notElements => "invalid __array_struct__"
  | .notDescription => "Invalid __array_interface__ value, must be a dict"
  | .noElementType => "Missing __array_interface__ typestr"
  | .elementTypeNotText => "__array_interface__ typestr must be a string"
  | .unknownElementType text => "data type " ++ Text.quote text ++ " not understood"
  | .noElementShape => "Missing __array_interface__ shape"
  | .elementShapeNotTuple => "shape must be a tuple"
  | .notBytes type => "a bytes-like object is required, not '" ++ type.within 100 ++ "'"
  | .notAPlace =>
    "__array_interface__ data must be a 2-tuple with (data pointer integer, read-only flag)"
  | .placeNotWhole => "first element of __array_interface__ data tuple must be an integer."
  | .singleForMany => "cannot coerce scalar to array with size > 1"
  | .notWhole type =>
    "int() argument must be a string, a bytes-like object or a real number, not '" ++
      type.within 200 ++ "'"
  | .notFloating type =>
    "float() argument must be a string or a real number, not '" ++ type.within 200 ++ "'"
  | .notItsNumber name kind type =>
    name ++ " returned non-" ++ kind ++ " (type " ++ type.within 200 ++ ")"
  | .notARow => "Could not convert object to sequence"
  | .notGrid => "object __array__ method not producing an array"

end Refusal

end TensorGraph
