import TensorGraph.Error

/-!
# Categories of errors

Errors of one category have one kind of cause. Whoever asks an object for what it may not have tells
by the category whether it is not there.
-/

namespace TensorGraph

inductive Category where
  /-- An argument of the right type with a wrong value. -/
  | value
  | type
  /-- A position where nothing is. -/
  | position
  /-- A key under which nothing is. -/
  | key
  | attribute
  /-- A name that stands for nothing. -/
  | name
  /-- A number that is too large. -/
  | range
  | memory
  | division
  | depth
  /-- A class that cannot be made. -/
  | making
  /-- Elements without common arithmetic. -/
  | elements
  | buffer
  | shape
  | store
  | kind
  | cycle
  | gradient
  | unwritten
  /-- A kind without rules. -/
  | unsupported
deriving DecidableEq, Repr, Inhabited

def Refusal.category : Refusal → Category
  | .negativeLength | .tooFewParts .. | .tooManyParts _ | .fieldShared _ | .nullInName
  | .notElements
  | .notDescription | .noElementType | .noElementShape | .singleForMany | .notGrid => .value
  | .beyondWord _ => .range
  | .namingFailed .. => .making
  | .noSetter => .attribute
  | .noItemAt _ | .scalarIndex => .position
  | _ => .type

namespace Error

def category : Error → Category
  | .invalidDimension .. | .needsTwoSources _ | .takesOneSource .. | .operandCount ..
  | .noSuchOperand _ | .otherOperand _ | .inhomogeneous _ | .nestedTooDeep
  | .notBroadcastable .. | .ambiguousTruth
  | .emptyTruth | .tooManyDimensions _ | .dimensionTooLarge | .bufferTooLarge | .raggedData
  | .malformedInteger _ | .tooManyDigits _ | .integerTooLong | .malformedFloat _
  | .emptyCell => .value
  | .emptyVariable _ => .name
  | .refused why => why.category
  | .unknownBuffer _ => .buffer
  | .shapeMismatch .. | .otherShape .. => .shape
  | .missingNode | .indexTooLarge | .noOperandAt | .emptySum => .position
  | .tooManyTimes | .textTooLong | .quotientTooLarge | .integerTooLarge | .outOfBounds ..
  | .beyondWord _ | .elementTooLarge => .range
  | .outOfMemory | .cannotAllocate _ => .memory
  | .noCommonType .. => .elements
  | .divisionByZero | .floatDivisionByZero => .division
  | .noAttribute .. | .noPlaceFor .. | .unsetField .. | .noClassAttribute .. | .sharedAttribute ..
  | .fixedAttribute .. | .propertyWithoutSetter .. | .readOnlyPart => .attribute
  | .foreignOperand | .foreignContext => .store
  | .kindMismatch .. | .otherKind .. => .kind
  | .reentered _ => .cycle
  | .gradientDisabled => .gradient
  | .missingOperand _ | .noEntry _ | .missingKey _ | .missingBuffer _ | .unexpectedKey _
  | .notEvaluated _
  | .missingKeys _ | .missingLabels _ | .unknownName _ => .key
  | .notImplemented => .unwritten
  | .noForwardRule _ | .noGradientRule _ => .unsupported
  | .tooDeep | .callsTooDeep | .comparedTooDeep => .depth
  | _ => .type

/-- Whether an error is about an attribute that is not there or cannot be set. -/
def isOfAttribute (e : Error) : Bool := e.category = .attribute

/-- Whether an error is about a position where nothing is. -/
def isOfPosition (e : Error) : Bool := e.category = .position

/-- Whether an error is about a key under which nothing is. -/
def isOfKey (e : Error) : Bool := e.category = .key

def isNotIterable : Error → Bool
  | .notIterable _ => true
  | _ => false

/-- Errors of conversion are told by their category alone. -/
def hasMessage : Error → Bool
  | .raggedData | .elementTooLarge => false
  | _ => true

end Error

end TensorGraph
