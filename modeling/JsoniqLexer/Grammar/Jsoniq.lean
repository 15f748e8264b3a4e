import JsoniqLexer.Grammar.Builder

/-!
# The JSONiq grammar

The words and rules of JSONiq in the SirixDB dialect. `isOk_build` says that they pass all checks, so
`Grammar.jsoniq` is a grammar and not merely the attempt at one.
-/

set_option autoImplicit false

namespace JsoniqLexer.Jsoniq

/-- The keywords. -/
def keywords : List String :=
  [ "let", "return", "for", "in", "where", "order", "by", "ascending", "descending",
    "if", "then", "else", "switch", "case", "default",
    "some", "every", "satisfies",
    "try", "catch",
    "import", "module", "namespace", "as", "at",
    "declare", "variable", "function",
    "instance", "of", "cast", "castable", "treat",
    "typeswitch",
    "not", "and", "or",
    "eq", "ne", "lt", "le", "gt", "ge",
    "insert", "delete", "replace", "rename",
    "into", "append", "json", "value", "with",
    "position", "to",
    "group", "collation" ]

/-- The builtins. -/
def builtins : List String :=
  [ "true", "false", "null", "empty",
    "document", "node", "element", "attribute", "text", "comment",
    "object", "array", "string", "integer", "decimal", "double", "boolean",
    "item" ]

/-- One or more blanks. -/
def whitespace : Text := "[ \\t\\n\\r\\f\\v]+".toList

/-- Any character. -/
def anyChar : Text := "(?s:.)".toList

/-- The rules outside of comments and strings. Names with a namespace come before plain words, and
the longer operators before the shorter ones. -/
def rootRules (b : GrammarBuilder) : GrammarBuilder :=
  b |>.rule .root whitespace (.plain .whitespace)
    |>.literal .root "(:".toList (.push .comment .comment)
    |>.literal .root "\"".toList (.push .stringDouble .doubleQuoted)
    |>.literal .root "'".toList (.push .stringSingle .singleQuoted)
    |>.literal .root "[?".toList (.plain .predicateOpen)
    |>.literal .root "$$".toList (.plain .contextItem)
    |>.rule .root "\\$[a-zA-Z_][a-zA-Z0-9_]*".toList (.plain .variableName)
    |>.ruleFollowedBy .root "[a-zA-Z][a-zA-Z0-9_\\-]*:[a-zA-Z][a-zA-Z0-9_\\-]*".toList
      "[ \\t\\n\\r\\f\\v]*\\(".toList (.plain .functionName)
    |>.rule .root "[0-9]+\\.[0-9]*(?:[eE][+\\-]?[0-9]+)?".toList (.plain .floatNumber)
    |>.rule .root "\\.[0-9]+(?:[eE][+\\-]?[0-9]+)?".toList (.plain .floatNumber)
    |>.rule .root "[0-9]+[eE][+\\-]?[0-9]+".toList (.plain .floatNumber)
    |>.rule .root "[0-9]+".toList (.plain .integerNumber)
    |>.rule .root "[a-zA-Z_][a-zA-Z0-9_\\-]*".toList .classified
    |>.literal .root ":=".toList (.plain .operator)
    |>.literal .root "..".toList (.plain .operator)
    |>.rule .root "[.,;!?@#\\[\\]()\x7b\x7d]".toList (.plain .punctuation)
    |>.rule .root "[:+\\-*/=<>|]".toList (.plain .operator)
    |>.rule .root anyChar (.plain .error)

/-- The rules inside a comment. -/
def commentRules (b : GrammarBuilder) : GrammarBuilder :=
  b |>.rule .comment "[^(:)]+".toList (.plain .comment)
    |>.literal .comment "(:".toList (.push .comment .comment)
    |>.literal .comment ":)".toList (.pop .comment)
    |>.rule .comment "[(:)]".toList (.plain .comment)
    |>.rule .comment anyChar (.plain .comment)

/-- The rules inside a string in double quotes; a quote is written twice. -/
def doubleQuotedRules (b : GrammarBuilder) : GrammarBuilder :=
  b |>.rule .doubleQuoted "[^\"]+".toList (.plain .stringDouble)
    |>.literal .doubleQuoted "\"\"".toList (.plain .stringDouble)
    |>.literal .doubleQuoted "\"".toList (.pop .stringDouble)
    |>.rule .doubleQuoted anyChar (.plain .stringDouble)

/-- The rules inside a string in single quotes; a quote is written twice. -/
def singleQuotedRules (b : GrammarBuilder) : GrammarBuilder :=
  b |>.rule .singleQuoted "[^']+".toList (.plain .stringSingle)
    |>.literal .singleQuoted "''".toList (.plain .stringSingle)
    |>.literal .singleQuoted "'".toList (.pop .stringSingle)
    |>.rule .singleQuoted anyChar (.plain .stringSingle)

/-- The words and rules of JSONiq. -/
def builder : GrammarBuilder :=
  singleQuotedRules <| doubleQuotedRules <| commentRules <| rootRules <|
    GrammarBuilder.empty
      |>.addKeywords (keywords.map String.toList)
      |>.addBuiltins (builtins.map String.toList)

/-- The words and rules of JSONiq pass all checks. -/
theorem isOk_build : builder.build.toOption.isSome = true := by decide +kernel

end JsoniqLexer.Jsoniq

/-- The grammar of JSONiq. -/
def JsoniqLexer.Grammar.jsoniq : Grammar := Jsoniq.builder.build.toOption.get Jsoniq.isOk_build

namespace JsoniqLexer.Grammar

/-- The grammar of JSONiq is what its words and rules are built into. -/
theorem build_builder : Jsoniq.builder.build = .ok jsoniq := by
  have h : Jsoniq.builder.build.toOption = some jsoniq := (Option.some_get _).symm
  cases hb : Jsoniq.builder.build with
  | error e => rw [hb] at h; cases h
  | ok g => rw [hb] at h; cases h; rfl

end JsoniqLexer.Grammar
