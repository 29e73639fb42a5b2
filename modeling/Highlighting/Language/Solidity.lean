/-
  Highlighting/Language/Solidity.lean
  ===================================
  **Solidity**: regions for declarations of functions and types, for
  `import`, `using` and `pragma` statements, and for sections of inline
  assembly, whose blocks in braces nest to any depth.

  A member of one of the global namespaces, as in `msg.sender`, has a rule of
  its own ahead of the rule for members in general, and says more about the
  language.
-/
import Highlighting.Language.Assembly

namespace Highlighting.Language.Solidity

/-! ## Words -/

/-- Names; the dollar sign belongs to them. -/
def lexeme : String := "[A-Za-z_$][A-Za-z_$0-9]*"

def keywords : List String := [
  "var", "bool", "string", "int", "uint", "byte", "bytes", "fixed", "ufixed", "enum", "struct",
  "mapping", "address", "new", "delete", "if", "else", "for", "while", "continue", "break",
  "return", "throw", "emit", "try", "catch", "revert", "unchecked", "_", "function", "modifier",
  "event", "constructor", "fallback", "receive", "error", "virtual", "override", "constant",
  "immutable", "anonymous", "indexed", "storage", "memory", "calldata", "external", "public",
  "internal", "payable", "pure", "view", "private", "returns", "import", "from", "as", "using",
  "global", "pragma", "contract", "interface", "library", "is", "abstract", "type", "data",
  "code", "object", "assembly"]

def literals : List String := [
  "true", "false", "wei", "gwei", "szabo", "finney", "ether", "seconds", "minutes", "hours",
  "days", "weeks", "years"]

def builtIns : List String := [
  "self", "this", "super", "selfdestruct", "suicide", "now", "msg", "block", "tx", "abi",
  "blockhash", "gasleft", "assert", "require", "Error", "Panic", "sha3", "sha256", "keccak256",
  "ripemd160", "ecrecover", "addmod", "mulmod", "log0", "log1", "log2", "log3", "log4"]

/-- Members of functions, arrays, addresses, values and types. -/
def reservedMembers : List String := [
  "gas", "value", "selector", "address", "length", "push", "pop", "send", "transfer", "call",
  "callcode", "delegatecall", "staticcall", "balance", "code", "codehash", "wrap", "unwrap",
  "name", "creationCode", "runtimeCode", "interfaceId", "min", "max"]

/-- The global namespaces with their members. -/
def namespaces : List (String × List String) := [
  ("msg", ["gas", "value", "data", "sender", "sig"]),
  ("block", ["blockhash", "coinbase", "difficulty", "gaslimit", "basefee", "number",
    "timestamp", "chainid"]),
  ("tx", ["gasprice", "origin"]),
  ("abi", ["decode", "encode", "encodePacked", "encodeWithSelector", "encodeWithSignature",
    "encodeCall"]),
  ("bytes", ["concat"]),
  ("string", ["concat"])]

/-- Options of a call, which are built-ins only right before a colon. -/
def callOptions : List String := ["gas", "value", "salt"]

/-- Bit widths of the numeric types. -/
def bitWidths : List Nat := (List.range 32).map fun n => 8 * (n + 1)

/-- The fixed point types that start with a word: a width, and 0 to 80 places. -/
def fixedTypes (word : String) : List String :=
  bitWidths.flatMap fun bits =>
    (List.range 81).map fun places => word ++ toString bits ++ "x" ++ toString places

def sizedTypes : List String :=
  ((List.range 32).map fun n => "bytes" ++ toString (n + 1)) ++
    bitWidths.map (fun bits => "int" ++ toString bits) ++
    bitWidths.map (fun bits => "uint" ++ toString bits) ++
    fixedTypes "fixed" ++ fixedTypes "ufixed"

/-- A table with the lexeme of the language. -/
def tableOf (keywords builtIns : List String) : Except GrammarError KeywordTable :=
  (((KeywordDecl.empty.withLexeme lexeme).add .keyword keywords).add .builtIn builtIns).compile

def table : Except GrammarError KeywordTable :=
  let words := (KeywordDecl.empty.withLexeme lexeme).add .keyword (keywords ++ sizedTypes)
  ((words.add .literal literals).add .builtIn builtIns).compile

/-! ## Rules -/

/-- A region opened by words, which are its keywords. -/
def declarationMode (words : List String) : Except GrammarError ModeDecl := do
  return { ModeDecl.blank.openedByWords words with keywords := some (← tableOf words []) }

/-- A region from one of the words to a semicolon. -/
def statementMode (words keywords builtIns : List String) : Except GrammarError ModeDecl := do
  return { ModeDecl.blank.openedByWords words with
    keywords := some (← tableOf keywords builtIns), ending := .pattern (.literal ";") }

/-- The members after a namespace, up to the end of the chain of members. -/
def namespaceMode (name : String) (members : List String) (reserved : Nat) :
    Except GrammarError ModeDecl := do
  let opener := "\\b" ++ String.ofList (Regex.escape name.toList) ++ "\\.\\s*"
  return { ModeDecl.opening ((PatternDecl.ofRegex opener).unlessAfter '$') with
    ending := .pattern (.ofRegex "[^A-Za-z0-9$_.]"), excludesEnd := true,
    keywords := some (← tableOf [] (name :: members)), contains := [reserved],
    relevance := some 10 }

/-- The members that a character introduces: a region between two matches that both stay
outside. -/
def memberMode (opener : PatternDecl) (closer : String) (members : List String) :
    Except GrammarError ModeDecl := do
  let table ← (KeywordDecl.empty.add .builtIn members).compile
  return { ModeDecl.opening opener with
    ending := .pattern (.ofRegex closer), excludesBegin := true, excludesEnd := true,
    keywords := some table, relevance := some 2 }

/-- A section of assembly.  It has no end of its own and closes with the outermost of its
blocks. -/
def declareAssembly (l : Literals) : Construct Nat := do
  let table ← Assembly.table [] []
  let rules ← Assembly.declare l table
  let members ← Builder.add (← memberMode (.literal ".") "[^A-Za-z0-9$.]"
    ["slot", "offset", "length", "address", "selector"])
  let oldMembers ← Builder.add (← memberMode (.literal "_") "[^A-Za-z0-9$.]" ["slot", "offset"])
  let block ← Builder.reserve
  let blockMode : ModeDecl :=
    { ModeDecl.opening (.literal "\x7b") with
      ending := .pattern (.literal "\x7d"), keywords := some table,
      contains := rules ++ [members, oldMembers, block] }
  Builder.define block blockMode
  let topBlock ← Builder.add { blockMode with endsParent := true }
  let strings ← l.directiveStrings
  Builder.add { ← declarationMode ["assembly"] with
    ending := .never, contains := l.comments ++ strings ++ [topBlock] }

def declare : Construct LanguageDecl := do
  let table ← table
  let l ← Literals.declare
  let operators ← Builder.add
    { ModeDecl.opening (.ofRegex "[+\\-!~*/%<>&^|=]") with scope := some .operator }
  let params ← Builder.add
    { ModeDecl.opening (.literal "(") with
      scope := some .params, ending := .pattern (.literal ")"), excludesBegin := true,
      excludesEnd := true, keywords := some table,
      contains := l.comments ++ [l.aposString, l.quoteString, l.number] }
  let reserved ← Builder.add
    (← memberMode (.ofRegex "\\.\\s*") "[^A-Za-z0-9$_.]" reservedMembers)
  let title ← Builder.add { ModeDecl.title Assembly.titleRegex with keywords := some table }
  let options ← Builder.add
    { ModeDecl.opening (((PatternDecl.ofRegex
        ("\\b(?:" ++ "|".intercalate callOptions ++ ")")).before ':').unlessAfter '$') with
      scope := some .builtIn }
  let function ← Builder.add { ← declarationMode ["function", "modifier", "event",
      "constructor", "fallback", "receive", "error"] with
    scope := some .function, ending := .pattern (.ofRegex "[\x7b;]"), excludesEnd := true,
    illegal := some (.literal "%"), contains := [title, params, options] ++ l.comments }
  let members ← namespaces.mapM fun (name, members) => do
    Builder.add (← namespaceMode name members reserved)
  let inheritance ← Builder.add (← declarationMode ["is"])
  let type ← Builder.add { ← declarationMode ["contract", "interface", "library"] with
    scope := some .declaration, ending := .pattern (.literal "\x7b"), excludesEnd := true,
    illegal := some (.ofRegex "[:\"\\[\\]]"),
    contains := [inheritance, title, params, options] ++ l.comments }
  let record ← Builder.add { ← declarationMode ["struct", "enum"] with
    ending := .pattern (.literal "\x7b"), excludesEnd := true,
    illegal := some (.ofRegex "[:\"\\[\\]]"), contains := [title] ++ l.comments }
  let imports ← Builder.add { ← statementMode ["import"] ["import", "from", "as"] [] with
    contains := [title] ++ l.strings ++ l.comments ++ [operators] }
  let using_ ← Builder.add { ← statementMode ["using"] ["using", "for", "global"] [] with
    contains := [title] ++ l.comments ++ [operators] }
  let strings ← l.directiveStrings
  let pragma ← Builder.add { ← statementMode ["pragma"]
      ["pragma", "solidity", "experimental", "abicoder"]
      ["ABIEncoderV2", "SMTChecker", "v1", "v2"] with
    scope := some .directive, contains := l.comments ++ strings }
  let assembly ← declareAssembly l
  return {
    name := "solidity", aliases := ["sol"], keywords := some table,
    contains := l.strings ++ l.comments ++ [l.number, options, operators, function] ++ members ++
      [reserved, type, record, imports, using_, pragma, assembly]
    illegal := some (.literal "#") }

def grammarWith (lookbehind : Lookbehind) : Except GrammarError Grammar := do
  let (language, builder) ← declare (Builder.start lookbehind)
  builder.finish language

def grammar : Except GrammarError Grammar := grammarWith .usual

end Highlighting.Language.Solidity
