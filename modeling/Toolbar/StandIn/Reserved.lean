/-
# `Toolbar.StandIn.Reserved` — attributes that a template must not read

Values have attributes of their own besides the keys of a map.  A template may read none of them;
the tables list their names for each kind of value, so that an attribute that does not exist can be
told from one that is kept away.
-/
import Toolbar.Text.Search
import Toolbar.Value.Basic

namespace Toolbar.StandIn

/-- Attributes of every value. -/
def reservedByAll : List String :=
  ["__class__", "__delattr__", "__dir__", "__doc__", "__eq__", "__format__", "__ge__",
   "__getattribute__", "__getstate__", "__gt__", "__hash__", "__init__", "__init_subclass__",
   "__le__", "__lt__", "__ne__", "__new__", "__reduce__", "__reduce_ex__", "__repr__",
   "__setattr__", "__sizeof__", "__str__", "__subclasshook__"]

/-- Attributes of a map. -/
def reservedByMap : List String :=
  ["__class_getitem__", "__contains__", "__delitem__", "__getitem__", "__ior__", "__iter__",
   "__len__", "__or__", "__reversed__", "__ror__", "__setitem__", "clear", "copy", "fromkeys",
   "get", "items", "keys", "pop", "popitem", "setdefault", "update", "values"]

/-- Attributes of a text. -/
def reservedByText : List String :=
  ["__add__", "__contains__", "__getitem__", "__getnewargs__", "__iter__", "__len__", "__mod__",
   "__mul__", "__rmod__", "__rmul__", "capitalize", "casefold", "center", "count", "encode",
   "endswith", "expandtabs", "find", "format", "format_map", "index", "isalnum", "isalpha",
   "isascii", "isdecimal", "isdigit", "isidentifier", "islower", "isnumeric", "isprintable",
   "isspace", "istitle", "isupper", "join", "ljust", "lower", "lstrip", "maketrans", "partition",
   "removeprefix", "removesuffix", "replace", "rfind", "rindex", "rjust", "rpartition", "rsplit",
   "rstrip", "split", "splitlines", "startswith", "strip", "swapcase", "title", "translate",
   "upper", "zfill"]

/-- Attributes of a list. -/
def reservedByList : List String :=
  ["__add__", "__class_getitem__", "__contains__", "__delitem__", "__getitem__", "__iadd__",
   "__imul__", "__iter__", "__len__", "__mul__", "__reversed__", "__rmul__", "__setitem__",
   "append", "clear", "copy", "count", "extend", "index", "insert", "pop", "remove", "reverse",
   "sort"]

/-- Attributes of an integer. -/
def reservedByInt : List String :=
  ["__abs__", "__add__", "__and__", "__bool__", "__ceil__", "__divmod__", "__float__", "__floor__",
   "__floordiv__", "__getnewargs__", "__index__", "__int__", "__invert__", "__lshift__", "__mod__",
   "__mul__", "__neg__", "__or__", "__pos__", "__pow__", "__radd__", "__rand__", "__rdivmod__",
   "__rfloordiv__", "__rlshift__", "__rmod__", "__rmul__", "__ror__", "__round__", "__rpow__",
   "__rrshift__", "__rshift__", "__rsub__", "__rtruediv__", "__rxor__", "__sub__", "__truediv__",
   "__trunc__", "__xor__", "as_integer_ratio", "bit_count", "bit_length", "conjugate",
   "denominator", "from_bytes", "imag", "numerator", "real", "to_bytes"]

/-- Attributes of a double. -/
def reservedByReal : List String :=
  ["__abs__", "__add__", "__bool__", "__ceil__", "__divmod__", "__float__", "__floor__",
   "__floordiv__", "__getformat__", "__getnewargs__", "__int__", "__mod__", "__mul__", "__neg__",
   "__pos__", "__pow__", "__radd__", "__rdivmod__", "__rfloordiv__", "__rmod__", "__rmul__",
   "__round__", "__rpow__", "__rsub__", "__rtruediv__", "__sub__", "__truediv__", "__trunc__",
   "as_integer_ratio", "conjugate", "fromhex", "hex", "imag", "is_integer", "real"]

/-- Attributes of null. -/
def reservedByNull : List String :=
  ["__bool__"]

/-- Attributes of a template as it is for itself. -/
def reservedBySelf : List String :=
  ["_TemplateReference__context", "__dict__", "__getitem__", "__module__", "__weakref__"]

/-- The attributes of a value of its kind alone. -/
def reservedOf : Value → List String
  | .map _ => reservedByMap
  | .text _ | .date _ | .stamp _ => reservedByText
  | .list _ => reservedByList
  | .num (.int _) | .bool _ => reservedByInt
  | .num (.real _) => reservedByReal
  | .null => reservedByNull
  | .routine _ | .object _ => reservedBySelf

/-- Whether a value has an attribute of that name. -/
def isReserved (v : Value) (name : String) : Bool :=
  reservedByAll.contains name || (reservedOf v).contains name

/-- Attributes of what stands for a name without a value. -/
def reservedByMissing : List String :=
  reservedByAll ++
    ["__add__", "__radd__", "__sub__", "__rsub__", "__mul__", "__rmul__", "__div__", "__rdiv__",
     "__truediv__", "__rtruediv__", "__floordiv__", "__rfloordiv__", "__mod__", "__rmod__",
     "__pos__", "__neg__", "__call__", "__getitem__", "__int__", "__float__", "__complex__",
     "__pow__", "__rpow__", "__len__", "__iter__", "__aiter__", "__bool__", "__contains__",
     "__getattr__", "__module__", "__slots__", "_fail_with_undefined_error",
     "_undefined_exception", "_undefined_hint", "_undefined_message", "_undefined_name",
     "_undefined_obj"]

end Toolbar.StandIn
