/-
  Highlighting/Language/Assembly.lean
  ===================================
  **Assembly**: the words and rules that its two forms share, a file of its
  own and a section inside a contract.
-/
import Highlighting.Language.Literals

namespace Highlighting.Language.Assembly

/-- Names in assembly.  Dotted ones such as `x.slot` are a single word. -/
def lexeme : String := "[A-Za-z_$][A-Za-z_$0-9.]*"

def titleRegex : String := "[A-Za-z$_][0-9A-Za-z$_]*"

def keywords : List String := [
  "assembly", "let", "function", "if", "switch", "case", "default", "for", "leave", "break",
  "continue", "u256", "jump", "jumpi", "stop", "return", "revert", "selfdestruct", "invalid"]

def literals : List String := ["true", "false"]

def builtIns : List String := [
  -- arithmetic and bits
  "add", "sub", "mul", "div", "sdiv", "mod", "smod", "exp", "not", "lt", "gt", "slt", "sgt",
  "eq", "iszero", "and", "or", "xor", "byte", "shl", "shr", "sar", "addmod", "mulmod",
  "signextend", "keccak256",
  -- the stack
  "pc", "pop", "dup1", "dup2", "dup3", "dup4", "dup5", "dup6", "dup7", "dup8", "dup9", "dup10",
  "dup11", "dup12", "dup13", "dup14", "dup15", "dup16", "swap1", "swap2", "swap3", "swap4",
  "swap5", "swap6", "swap7", "swap8", "swap9", "swap10", "swap11", "swap12", "swap13",
  "swap14", "swap15", "swap16",
  -- memory and storage
  "mload", "mstore", "mstore8", "sload", "sstore", "tload", "tstore", "mcopy", "msize",
  -- the context of the execution
  "gas", "address", "balance", "selfbalance", "caller", "callvalue", "calldataload",
  "calldatasize", "calldatacopy", "codesize", "codecopy", "extcodesize", "extcodecopy",
  "returndatasize", "returndatacopy", "extcodehash",
  -- calls and logs
  "create", "create2", "call", "callcode", "delegatecall", "staticcall", "log0", "log1",
  "log2", "log3", "log4",
  -- the chain and its blocks
  "chainid", "origin", "gasprice", "basefee", "blobbasefee", "blobhash", "blockhash",
  "coinbase", "timestamp", "number", "difficulty", "prevrandao", "gaslimit"]

/-- The keyword table of assembly, with the words that a dialect adds. -/
def table (moreKeywords moreBuiltIns : List String) : Except GrammarError KeywordTable :=
  let words := (KeywordDecl.empty.withLexeme lexeme).add .keyword (keywords ++ moreKeywords)
  let words := words.add .builtIn (builtIns ++ moreBuiltIns)
  (words.add .literal literals).compile

/-- Adds the rules of assembly besides its blocks (literals, comments, the two operators and
function definitions) and answers the numbers of those that count at its top. -/
def declare (l : Literals) (table : KeywordTable) : Construct (List Nat) := do
  let operators ← Builder.add
    { ModeDecl.opening (.ofRegex ":=|->") with scope := some .operator }
  let title ← Builder.add { ModeDecl.title titleRegex with keywords := some table }
  let params ← Builder.add
    { ModeDecl.opening (.literal "(") with
      scope := some .params, ending := .pattern (.literal ")"), excludesBegin := true,
      excludesEnd := true, keywords := some table,
      contains := l.comments ++ l.strings ++ [l.number] }
  let function ← Builder.add
    { ModeDecl.blank.openedByWords ["function"] with
      scope := some .function, ending := .pattern (.literal "\x7b"), excludesEnd := true,
      contains := [title, params] ++ l.comments ++ [operators] }
  return l.strings ++ l.comments ++ [l.number, operators, function]

end Highlighting.Language.Assembly
