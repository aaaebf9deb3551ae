import TensorGraph.Network.Object

/-!
# Attributes that cannot be set

Objects of one type share attributes, such as the functions of the type, and have parts that the
type keeps or computes. A value lets none of them be set; a holder of attributes only refuses what
the type computes. Some parts of a function can be set, but only to objects of one kind.
-/

namespace TensorGraph

/-- Why an attribute cannot be set. -/
inductive Guard where
  | shared
  /-- A part that belongs to a type. -/
  | part (owner : String)
  | property
  /-- A part that never changes. -/
  | readOnly
deriving DecidableEq, Repr

namespace Guard

/-- The names in a text. -/
def names (text : String) : List String := (text.splitOn " ").filter fun s => !s.isEmpty

/-- Names between double underscores. -/
def special (text : String) : List String := (names text).map fun s => "__" ++ s ++ "__"

/-- Shared by all objects. -/
def common : List String :=
  special ("delattr dir doc eq format ge getattribute getstate gt hash init init_subclass le lt " ++
    "ne new reduce reduce_ex repr setattr sizeof str subclasshook")

def integers : List String :=
  names "as_integer_ratio bit_count bit_length conjugate from_bytes to_bytes" ++
  special ("abs add and bool ceil divmod float floor floordiv getnewargs index int invert " ++
    "lshift mod mul neg or pos pow radd rand rdivmod rfloordiv rlshift rmod rmul ror round " ++
    "rpow rrshift rshift rsub rtruediv rxor sub truediv trunc xor")

def floats : List String :=
  names "as_integer_ratio conjugate fromhex hex is_integer" ++
  special ("abs add bool ceil divmod float floor floordiv getformat getnewargs int mod mul neg " ++
    "pos pow radd rdivmod rfloordiv rmod rmul round rpow rsub rtruediv sub truediv trunc")

def texts : List String :=
  names ("capitalize casefold center count encode endswith expandtabs find format format_map " ++
    "index isalnum isalpha isascii isdecimal isdigit isidentifier islower isnumeric " ++
    "isprintable isspace istitle isupper join ljust lower lstrip maketrans partition " ++
    "removeprefix removesuffix replace rfind rindex rjust rpartition rsplit rstrip split " ++
    "splitlines startswith strip swapcase title translate upper zfill") ++
  special "add contains getitem getnewargs iter len mod mul rmod rmul"

def tuples : List String :=
  names "count index" ++ special "add class_getitem contains getitem getnewargs iter len mul rmul"

/-- Shared by the integers of a fixed width. -/
def words : List String :=
  names ("all any argmax argmin argsort astype bit_count byteswap choose clip compress conj " ++
    "conjugate copy cumprod cumsum diagonal dump dumps fill flatten getfield is_integer item " ++
    "max mean min nonzero prod put ravel repeat reshape resize round searchsorted setfield " ++
    "setflags sort squeeze std sum swapaxes take to_device tobytes tofile tolist tostring " ++
    "trace transpose var view") ++
  special ("abs add and array array_namespace array_wrap bool class_getitem copy deepcopy " ++
    "divmod float floordiv getitem index int invert lshift mod mul neg or pos pow radd rand " ++
    "rdivmod rfloordiv rlshift rmod rmul ror round rpow rrshift rshift rsub rtruediv rxor " ++
    "setstate sub truediv xor")

/-- The parts of every number of a fixed width. -/
def wordParts : List String :=
  names ("T base data device dtype flags flat imag itemset itemsize nbytes ndim newbyteorder " ++
    "ptp real shape size strides") ++
  special "array_interface array_priority array_struct"

def expressions : List String :=
  names ("accept backward eval exp expect gtz log parameters reciprocal same toposort _binop " ++
    "_ensure_expr _unop") ++
  special "add module mul neg slots sub truediv"

def expressionProperties : List String := names "arena children index kind name node shape"

def ratioParts : List String := names "denominator numerator"

/-- The parts of a class that never change. -/
def classParts : List String :=
  special "base basicsize dictoffset flags itemsize mro weakrefoffset"

def functionParts : List String := special "builtins closure globals"

/-- The first group of names that holds one. -/
def find? (groups : List (List String × Guard)) (name : String) : Option Guard :=
  (groups.find? fun g => g.1.contains name).map Prod.snd

def ofValue? (v : Value) (name : String) : Option Guard :=
  match v with
  | .none => find? [(common ++ special "bool", .shared)] name
  | .bool _ | .int _ =>
    find? [("real" :: "imag" :: ratioParts, .part "int"), (common ++ integers, .shared)] name
  | .sized .. =>
    find? [(wordParts, .part "numpy.generic"), (ratioParts, .part "numpy.integer"),
      (common ++ words, .shared)] name
  | .float _ | .undefined _ =>
    find? [(["real", "imag"], .part "float"), (common ++ floats, .shared)] name
  | .sizedFloat _ => find? [(wordParts, .part "numpy.generic")] name
  | .text _ => find? [(common ++ texts, .shared)] name
  | .list _ => none
  | .tuple _ => find? [(common ++ tuples, .shared)] name
  | .shape _ => find? [(["ndim"], .property)] name

def ofExpr? (name : String) : Option Guard :=
  find? [(expressionProperties, .property), (common ++ expressions, .shared)] name

/-- The part of an object that its class keeps. -/
def ofClass? (c : Class) (className name : String) : Option Guard :=
  if name == "__weakref__" then
    match c with
    | .layer _ => some (.part "Module")
    | .plain => none
    | .made _ => some (.part className)
  else none

def error (g : Guard) (type : TypeName) (name : String) : Error :=
  match g with
  | .shared => .sharedAttribute type name
  | .part owner => .fixedAttribute owner name
  | .property => .propertyWithoutSetter type name
  | .readOnly => .readOnlyPart

end Guard

/-- What a part of a function has to be. -/
inductive PartKind where
  | code
  | dict
  | text
  | tuple
deriving DecidableEq, Repr

namespace PartKind

def word : PartKind → String
  | .code => "code"
  | .dict => "dict"
  | .text => "string"
  | .tuple => "tuple"

/-- The kind that a part of a function has to be of; most attributes of it may be anything. -/
def ofName? : String → Option PartKind
  | "__code__" => some .code
  | "__annotations__" | "__kwdefaults__" => some .dict
  | "__name__" | "__qualname__" => some .text
  | "__defaults__" => some .tuple
  | _ => none

/-- Whether an object is of the kind. A part that is a container can also be left out. -/
def admits (k : PartKind) (h : Heap) (a : Address) : Bool :=
  match k, h.get? a with
  | .dict, some (.dict _) => true
  | .text, some (.value (.text _)) => true
  | .tuple, some (.tuple _) | .tuple, some (.shape ..) => true
  | .dict, some (.value .none) | .tuple, some (.value .none) => true
  | _, _ => false

end PartKind

namespace Heap

/-- An attribute that the members of a class have in common. -/
def classAttribute? (h : Heap) (c : Class) (name : String) : Option Address :=
  match c with
  | .layer _ | .plain => none
  | .made type => (h.madeClass? type).bind fun c => c.attrs.get? name

def hasInClass (h : Heap) (c : Class) (name : String) : Bool := (h.classAttribute? c name).isSome

/-- The guard of an attribute of an object. -/
def guard? (h : Heap) (a : Address) (name : String) : Option Guard :=
  match h.get? a with
  | some (.value v) => Guard.ofValue? v name
  | some (.expr _) | some (.stray ..) => Guard.ofExpr? name
  | some (.shape s _) => Guard.ofValue? (.shape s) name
  | some (.tuple _) => Guard.ofValue? (.tuple []) name
  | some (.member c ..) =>
    if h.hasInClass c name then none else Guard.ofClass? c (h.className c) name
  | some (.function ..) => Guard.find? [(Guard.functionParts, .readOnly)] name
  | some (.type ..) =>
    Guard.find? [(Guard.classParts, .readOnly), (["__text_signature__"], .part "type")] name
  | _ => none

end Heap

end TensorGraph
