/-!
# Token categories

Every token has exactly one category. `Category.all` lists them in the order in which they are
ranked.
-/

set_option autoImplicit false

namespace JsoniqLexer

/-- What a token is. -/
inductive Category where
  | whitespace
  | comment
  | stringDouble
  | stringSingle
  /-- `[?`, which opens a predicate. -/
  | predicateOpen
  /-- The context item `$$`. -/
  | contextItem
  | variableName
  /-- A name with a namespace in a call, such as `jn:open` before a parenthesis. -/
  | functionName
  | floatNumber
  | integerNumber
  | keyword
  | builtin
  | identifier
  | operator
  | punctuation
  /-- A character that starts nothing. -/
  | error
deriving DecidableEq, Repr

namespace Category

/-- The categories in ascending order. -/
def all : List Category :=
  [ whitespace, comment, stringDouble, stringSingle, predicateOpen, contextItem, variableName,
    functionName, floatNumber, integerNumber, keyword, builtin, identifier, operator, punctuation,
    error ]

/-- The name of a category in token listings. -/
def label : Category → String
  | whitespace => "Whitespace"
  | comment => "Comment"
  | stringDouble => "StringDouble"
  | stringSingle => "StringSingle"
  | predicateOpen => "PredicateOpenBracket"
  | contextItem => "GlobalVariable"
  | variableName => "Variable"
  | functionName => "NamespacedFunctionName"
  | floatNumber => "FloatNumber"
  | integerNumber => "IntegerNumber"
  | keyword => "Keyword"
  | builtin => "Builtin"
  | identifier => "Identifier"
  | operator => "Operator"
  | punctuation => "Punctuation"
  | error => "Error"

/-- The class of a category in highlighted markup; both kinds of punctuation share one. -/
def cssClass : Category → String
  | whitespace => "w"
  | comment => "c"
  | stringDouble => "s2"
  | stringSingle => "s1"
  | predicateOpen | punctuation => "p"
  | contextItem => "vg"
  | variableName => "nv"
  | functionName => "nf"
  | floatNumber => "mf"
  | integerNumber => "mi"
  | keyword => "k"
  | builtin => "nb"
  | identifier => "n"
  | operator => "o"
  | error => "err"

/-- Whitespace and comments carry no meaning. -/
def isTrivia (c : Category) : Bool := c = whitespace || c = comment

/-- A string in either kind of quotes. -/
def isString (c : Category) : Bool := c = stringDouble || c = stringSingle

/-- A number of either kind. -/
def isNumber (c : Category) : Bool := c = floatNumber || c = integerNumber

/-- The categories ranked before `c`. -/
def below (c : Category) : List Category := all.takeWhile (· != c)

theorem mem_all (c : Category) : c ∈ all := by cases c <;> decide

end Category

end JsoniqLexer
