import TensorGraph.Error.Refusal
import TensorGraph.Graph.Kind
import TensorGraph.Number.Bytes
import TensorGraph.Value.Signature

/-!
# Errors

Every way in which building, lowering, differentiating or loading can fail, with the facts that
its message states.
-/

namespace TensorGraph

/-- Where two shapes had to agree. -/
inductive Site where
  | operator (kind : Kind)
  /-- An instruction, by the name of its operation. -/
  | emission (name : String) (source1 source2 : Nat)
  | seed
  | upload
deriving Repr, Inhabited

def Site.text : Site → String
  | .operator kind => kind.name
  | .emission name source1 source2 =>
    name ++ "(" ++ toString source1 ++ ", " ++ toString source2 ++ ")"
  | .seed => "backward seed"
  | .upload => "upload"

inductive Error where
  /-- A dimension is no plain nonnegative integer. -/
  | invalidDimension (dim : Value) (dims : List Value)
  | shapeNotIterable (type : TypeName)
  | notIterable (type : TypeName)
  | notCallable (type : TypeName)
  /-- An object that can change in what it equals cannot be looked up. -/
  | unhashable (type : TypeName)
  /-- An object does not do what it is asked. -/
  | refused (why : Refusal)
  | notAnOp (v : Value)
  /-- An operation, told by its name, reads two sources. -/
  | needsTwoSources (name : String)
  | takesOneSource (name : String) (source2 : Int)
  | unknownBuffer (id : Int)
  | shapeMismatch (site : Site) (left right : Shape)
  | operandCount (kind : Kind) (count : Nat)
  | noSuchOperand (index : Int)
  /-- What stands for the index of an operand, told by its text, refers to no node. -/
  | otherOperand (text : String)
  /-- A handle refers to no node of its arena. -/
  | missingNode
  /-- An index exceeds the machine word. -/
  | indexTooLarge
  /-- An expression has no operand at the position asked for. -/
  | noOperandAt
  | emptySum
  | unsupportedOperands (symbol : String) (left right : TypeName)
  | unsupportedOperand (symbol : String) (type : TypeName)
  /-- Only a sequence of the same type can be joined to a sequence. -/
  | notJoinable (type right : TypeName)
  /-- A sequence can be repeated a whole number of times only. -/
  | notRepeatable (right : TypeName)
  | tooManyTimes
  /-- A repeated text is longer than any text. -/
  | textTooLong
  | outOfMemory
  /-- Elements of two types have no common arithmetic. -/
  | noCommonType (operation left right : String)
  /-- Texts have no quotients. -/
  | noQuotientType
  /-- Texts are not repeated element by element. -/
  | noElementwiseRepetition
  /-- Nested items whose dimensions agree up to a depth only. -/
  | inhomogeneous (dims : List Nat)
  | nestedTooDeep
  | notBroadcastable (left right : List Nat)
  | divisionByZero
  | floatDivisionByZero
  /-- The quotient of two integers exceeds every floating number. -/
  | quotientTooLarge
  /-- An integer exceeds every floating number. -/
  | integerTooLarge
  | outOfBounds (n : Int) (width : Width)
  /-- An integer that should become one of a width exceeds the machine word. -/
  | beyondWord (width : Width)
  /-- A comparison with many items has many answers. -/
  | ambiguousTruth
  /-- A comparison with no items has no answer. -/
  | emptyTruth
  | noAttribute (type : TypeName) (name : String)
  /-- An object has no place for an attribute of a name. -/
  | noPlaceFor (type : TypeName) (name : String)
  /-- A field is not set. -/
  | unsetField (type : TypeName) (name : String)
  | noClassAttribute (className name : String)
  /-- An attribute is named by a text. -/
  | attributeNotText (type : TypeName)
  /-- An attribute that all objects of a type share. -/
  | sharedAttribute (type : TypeName) (name : String)
  /-- A part of every object of a type, which is computed or kept by the type that owns it. -/
  | fixedAttribute (owner name : String)
  | propertyWithoutSetter (type : TypeName) (name : String)
  /-- A part that never changes. -/
  | readOnlyPart
  /-- A part of a function has to be an object of a kind. -/
  | wrongPart (name kind : String)
  | classNotNamed (className name : String) (type : TypeName)
  | notAClass (type : TypeName)
  | fixedClass
  /-- Objects of the class are laid out in another way. -/
  | otherLayout (className : String) (type : TypeName)
  | notADictionary (type : TypeName)
  /-- Something else than an arena was put in its place. -/
  | notSubscriptable (type : TypeName)
  /-- Something else than an integer was put in the place of an index. -/
  | notAnIndex (type : TypeName)
  /-- A function is called without one of its arguments. -/
  | missingArgument (callee argument : String)
  /-- A callee takes at most so many arguments, of which some can be left out. -/
  | tooManyArguments (callee : String) (most optional given : Nat)
  | takesNoArguments (className : String)
  /-- What sets an object up gave something. -/
  | resultOfSetup (type : TypeName)
  | notCombinable (type : TypeName)
  | notAnExpr (type : TypeName)
  | foreignOperand
  | foreignContext
  | kindMismatch (actual expected : Kind)
  /-- What stands for a kind, of which the name is told, is not the kind expected. -/
  | otherKind (name : String) (expected : Kind)
  /-- What stands for a shape, told by its text, is not the same as another one. -/
  | otherShape (site : Site) (left right : String)
  /-- There is no rule for evaluating what stands for a kind. -/
  | noForwardRule (name : String)
  /-- There is no rule for differentiating what stands for a kind. -/
  | noGradientRule (name : String)
  /-- A key, known by where it is stored, under which nothing is. -/
  | noEntry (key : Nat)
  /-- A key under which nothing is, by its text. -/
  | missingKey (key : String)
  | reentered (id : Int)
  | gradientDisabled
  /-- A node is evaluated before its operand. -/
  | missingOperand (index : Nat)
  | notImplemented
  | tooDeep
  /-- Objects that are called by one another without end. -/
  | callsTooDeep
  | comparedTooDeep
  | missingBuffer (id : Int)
  | unexpectedKey (key : String)
  | notEvaluated (key : String)
  | missingKeys (keys : List String)
  /-- Labels without data, as a text. -/
  | missingLabels (text : String)
  /-- A name that belongs to no member of a closed set. -/
  | unknownName (name : String)
  | tooManyDimensions (count : Nat)
  | dimensionTooLarge
  | bufferTooLarge
  /-- There is no memory for a buffer. -/
  | cannotAllocate (shape : Shape)
  | raggedData
  /-- An element of data exceeds every floating number. -/
  | elementTooLarge
  | malformedInteger (text : String)
  | tooManyDigits (count : Nat)
  /-- An integer has more digits than a text may hold. -/
  | integerTooLong
  /-- Where a function keeps what it captures, nothing is. -/
  | emptyCell
  /-- A function calls something by a name under which it captures nothing. -/
  | emptyVariable (name : String)
  | malformedFloat (text : String)
  | noneTakesNoArguments
deriving Repr, Inhabited

namespace Error

/-- Why an index refers to no node. Only machine words are looked up. -/
def absent (index : Int) : Error := if Width.word.holds index then .missingNode else .indexTooLarge

/-- A dimension in a message: an integer of a fixed width is written as a plain one. -/
def dimensionText : Value → String
  | .sized _ n => toString n
  | v => v.written

/-- Dimensions without blanks between them; a single one keeps a comma. -/
def dimsText : List Nat → String
  | [dim] => "(" ++ toString dim ++ ",)"
  | dims => "(" ++ ",".intercalate (dims.map toString) ++ ")"

/-- How many arguments a callee takes, some of which can be left out. -/
def countText (most optional : Nat) : String :=
  if 0 < optional then
    "from " ++ toString ((most : Int) - optional) ++ " to " ++ toString most ++
      " positional arguments"
  else toString most ++ (if most = 1 then " positional argument" else " positional arguments")

/-- That an object, told by its type, has no attribute of a name. -/
def noAttributeText (type name : String) : String :=
  "'" ++ type ++ "' object has no attribute '" ++ name ++ "'"

def operandText (index : String) : String :=
  "child index " ++ index ++ " does not refer to an existing node"

def kindText (name : String) (expected : Kind) : String :=
  "Downcasting from: " ++ name ++ ", to: " ++ expected.name

def message : Error → String
  | .invalidDimension dim dims =>
    "invalid dimension " ++ dimensionText dim ++ " in shape " ++ (Value.tuple dims).written
  | .shapeNotIterable type =>
    "lazygrad.shape.Shape() argument after * must be an iterable, not " ++ type.within 200
  | .notIterable type => "'" ++ type.within 200 ++ "' object is not iterable"
  | .notCallable type => "'" ++ type.within 200 ++ "' object is not callable"
  | .unhashable type => "unhashable type: '" ++ type.within 200 ++ "'"
  | .refused why => why.message
  | .notAnOp v => "not an op: " ++ v.written
  | .needsTwoSources name => name ++ " needs two sources"
  | .takesOneSource name source2 => name ++ " takes one source, got src2=" ++ toString source2
  | .unknownBuffer id => "buffer " ++ toString id ++ " was not produced by this builder"
  | .shapeMismatch site left right =>
    site.text ++ ": shape mismatch " ++ left.text ++ " vs " ++ right.text
  | .operandCount kind count =>
    kind.name ++ " takes " ++ toString kind.arity ++ " children, got " ++ toString count
  | .noSuchOperand index => operandText (toString index)
  | .otherOperand text => operandText text
  | .missingNode | .emptySum => "list index out of range"
  | .indexTooLarge => "cannot fit 'int' into an index-sized integer"
  | .noOperandAt => "tuple index out of range"
  | .unsupportedOperands symbol left right =>
    "unsupported operand type(s) for " ++ symbol ++ ": '" ++ left.within 100 ++ "' and '" ++
      right.within 100 ++ "'"
  | .unsupportedOperand symbol type =>
    "bad operand type for unary " ++ symbol ++ ": '" ++ type.within 200 ++ "'"
  | .notJoinable type right =>
    "can only concatenate " ++ type.qualified ++ " (not \"" ++ right.within 200 ++ "\") to " ++
      type.qualified
  | .notRepeatable right =>
    "can't multiply sequence by non-int of type '" ++ right.within 200 ++ "'"
  | .tooManyTimes => "cannot fit 'int' into an index-sized integer"
  | .textTooLong => "repeated string is too long"
  | .outOfMemory => ""
  | .noCommonType operation left right =>
    "ufunc '" ++ operation ++ "' did not contain a loop with signature matching types (dtype('" ++
      left ++ "'), dtype('" ++ right ++ "')) -> None"
  | .noQuotientType =>
    "ufunc 'divide' not supported for the input types, " ++
    "and the inputs could not be safely coerced " ++
      "to any supported types according to the casting rule ''safe''"
  | .noElementwiseRepetition =>
    "The 'out' kwarg is necessary. Use numpy.strings.multiply without it."
  | .inhomogeneous dims =>
    "setting an array element with a sequence. The requested array has an inhomogeneous shape " ++
      "after " ++ toString dims.length ++ " dimensions. The detected shape was " ++
      Value.tupleText (dims.map toString) ++ " + inhomogeneous part."
  | .nestedTooDeep =>
    "setting an array element with a sequence. The requested array would exceed the maximum " ++
      "number of dimension of " ++ toString Shape.rankLimit ++ "."
  | .notBroadcastable left right =>
    "operands could not be broadcast together with shapes " ++ dimsText left ++ " " ++
      dimsText right ++ " "
  | .divisionByZero => "division by zero"
  | .floatDivisionByZero => "float division by zero"
  | .quotientTooLarge => "integer division result too large for a float"
  | .integerTooLarge => "int too large to convert to float"
  | .outOfBounds n width =>
    "Python integer " ++ toString n ++ " out of bounds for " ++ width.name
  | .beyondWord width =>
    if width = .unsignedWord then "int too big to convert"
    else "Python int too large to convert to C long"
  | .ambiguousTruth =>
    "The truth value of an array with more than one element is ambiguous. " ++
      "Use a.any() or a.all()"
  | .emptyTruth =>
    "The truth value of an empty array is ambiguous. " ++
      "Use \x60array.size > 0\x60 to check that an array is not empty."
  | .noAttribute type name => noAttributeText (type.within 50) name
  | .noPlaceFor type name => noAttributeText (type.within 100) name
  | .unsetField type name => noAttributeText (type.within 200) name
  | .noClassAttribute className name =>
    "type object '" ++ Text.shortened 50 className ++ "' has no attribute '" ++ name ++ "'"
  | .attributeNotText type => "attribute name must be string, not '" ++ type.within 200 ++ "'"
  | .sharedAttribute type name =>
    "'" ++ type.within 50 ++ "' object attribute '" ++ name ++ "' is read-only"
  | .fixedAttribute owner name =>
    "attribute '" ++ name ++ "' of '" ++ Text.shortened 100 owner ++ "' objects is not writable"
  | .propertyWithoutSetter type name =>
    "property '" ++ name ++ "' of '" ++ type.qualified ++ "' object has no setter"
  | .readOnlyPart => "readonly attribute"
  | .wrongPart name kind => name ++ " must be set to a " ++ kind ++ " object"
  | .classNotNamed className name type =>
    "can only assign string to " ++ className ++ "." ++ name ++ ", not '" ++ type.qualified ++ "'"
  | .notAClass type => "__class__ must be set to a class, not '" ++ type.qualified ++ "' object"
  | .fixedClass => "__class__ assignment only supported for mutable types or ModuleType subclasses"
  | .otherLayout className type =>
    "__class__ assignment: '" ++ className ++ "' object layout differs from '" ++
      type.qualified ++ "'"
  | .notADictionary type =>
    "__dict__ must be set to a dictionary, not a '" ++ type.within 200 ++ "'"
  | .notSubscriptable type => "'" ++ type.within 200 ++ "' object is not subscriptable"
  | .notAnIndex type => "list indices must be integers or slices, not " ++ type.within 200
  | .missingArgument callee argument =>
    callee ++ "() missing 1 required positional argument: '" ++ argument ++ "'"
  | .tooManyArguments callee most optional given =>
    callee ++ "() takes " ++ countText most optional ++ " but " ++ toString given ++
      (if given = 1 then " was given" else " were given")
  | .takesNoArguments className => Text.shortened 200 className ++ "() takes no arguments"
  | .resultOfSetup type => "__init__() should return None, not '" ++ type.within 200 ++ "'"
  | .notCombinable type => "Cannot combine Expr with " ++ type.name
  | .notAnExpr type => "expected Expr, got " ++ type.name
  | .foreignOperand => "operands belong to different arenas"
  | .foreignContext => "context is bound to a different arena"
  | .kindMismatch actual expected => kindText actual.name expected
  | .otherKind name expected => kindText name expected
  | .otherShape site left right => site.text ++ ": shape mismatch " ++ left ++ " vs " ++ right
  | .noForwardRule name => "no forward rule for " ++ name
  | .noGradientRule name => "no gradient rule for " ++ name
  | .noEntry _ => ""
  | .missingKey key => key
  | .reentered id => "node " ++ toString id ++ " re-entered during its own evaluation"
  | .gradientDisabled => "gradient tracking is disabled for this context"
  | .missingOperand index => toString index
  | .notImplemented => ""
  | .tooDeep => "maximum recursion depth exceeded"
  | .callsTooDeep => "maximum recursion depth exceeded while calling a Python object"
  | .comparedTooDeep => "maximum recursion depth exceeded in comparison"
  | .missingBuffer id => toString id
  | .unexpectedKey key => "Unexpected key: " ++ key
  | .notEvaluated key => "parameter " ++ key ++ " has not been evaluated in this context"
  | .missingKeys keys => "Missing keys: " ++ (Value.list (keys.map .text)).written
  | .missingLabels text => "Missing keys: " ++ text
  | .unknownName name => name
  | .tooManyDimensions count =>
    "maximum supported dimension for an ndarray is currently " ++ toString Shape.rankLimit ++
      ", found " ++ toString count
  | .dimensionTooLarge => "Maximum allowed dimension exceeded"
  | .bufferTooLarge =>
    "array is too big; \x60arr.size * arr.dtype.itemsize\x60 is larger than " ++
      "the maximum possible size."
  | .cannotAllocate shape =>
    "Unable to allocate " ++ Number.byteText shape.bytes ++ " for an array with shape " ++
      Value.tupleText (shape.dims.map toString) ++ " and data type float32"
  | .raggedData => "ragged nesting"
  | .elementTooLarge => "element too large for a floating number"
  | .malformedInteger text =>
    "invalid literal for int() with base 10: " ++
      String.ofList ((Text.quoteChars text.toList).take 200)
  | .tooManyDigits count =>
    "Exceeds the limit (4300 digits) for integer string conversion: value has " ++ toString count ++
      " digits; use sys.set_int_max_str_digits() to increase the limit"
  | .integerTooLong =>
    "Exceeds the limit (4300 digits) for integer string conversion; " ++
      "use sys.set_int_max_str_digits() to increase the limit"
  | .emptyCell => "Cell is empty"
  | .emptyVariable name =>
    "cannot access free variable '" ++ name ++
      "' where it is not associated with a value in enclosing scope"
  | .malformedFloat text => "could not convert string to float: " ++ Text.quote text
  | .noneTakesNoArguments => "NoneType takes no arguments"

/-- The integers of arguments that the message states, in the pieces of their signatures. -/
def stated : Error → List Value.Token
  | .invalidDimension dim dims => dim.signature ++ Value.signatures dims
  | .notAnOp v => v.signature
  | .takesOneSource _ source2 => [.number source2]
  | .unknownBuffer id => [.number id]
  | .shapeMismatch _ left right => (Value.shape left).signature ++ (Value.shape right).signature
  | .noSuchOperand index => [.number index]
  | _ => []

/-- What is raised where an error is made: its message has to be written first. -/
def raised (digits : Option Nat) (e : Error) : Error :=
  if e.stated.any (Value.Token.isTooLong digits) then .integerTooLong else e

end Error

/-- A value inside a name. -/
def Value.shown (digits : Option Nat) (v : Value) : Except Error String :=
  if v.isTooLong digits then .error .integerTooLong else .ok v.inFull

end TensorGraph
