import ViewBinding.Java.Tree
import ViewBinding.Text.Blank
import ViewBinding.Report

/-!
# Places that are not Java

The places where a text is not Java are reported from its syntax tree: each outermost node that
was passed over or is absent, in the order of the text.

A tree that is Java everywhere need not be gone through: a node is flagged if it is a fault or an
absent token or has one below it (`ViewBinding.Java.isFlagged`), and nothing is looked for below a
node without a flag (`ViewBinding.Java.flaggedFaults`).
-/

namespace ViewBinding.Java

open Text

mutual

/-- The outermost faults and absent tokens at or below a node. -/
def faultsOf : Node → List Node
  | .mk kind role extent isAbsent children =>
    if isAbsent || kind == .fault then [.mk kind role extent isAbsent children]
    else faultsAmong children

/-- The outermost faults and absent tokens at or below the nodes. -/
def faultsAmong : List Node → List Node
  | [] => []
  | c :: cs => faultsOf c ++ faultsAmong cs

end

/-- Whether the node stands for a place that is not Java. -/
def Node.isFault (n : Node) : Bool :=
  n.isAbsent || n.kind == .fault

mutual

/-- Whether the node is a fault or an absent token or has one below it. -/
def isFlagged : Node → Bool
  | .mk kind _ _ isAbsent children => isAbsent || kind == .fault || isAnyFlagged children

/-- Whether one of the nodes is a fault or an absent token or has one below it. -/
def isAnyFlagged : List Node → Bool
  | [] => false
  | c :: cs => isFlagged c || isAnyFlagged cs

end

mutual

/-- The outermost faults and absent tokens at or below a node, looked for below flagged nodes
only. -/
def flaggedFaults (flag : Node → Bool) : Node → List Node
  | .mk kind role extent isAbsent children =>
    if isAbsent || kind == .fault then [.mk kind role extent isAbsent children]
    else if flag (.mk kind role extent isAbsent children) then flaggedFaultsAmong flag children
    else []

/-- The outermost faults and absent tokens at or below the nodes, looked for below flagged nodes
only. -/
def flaggedFaultsAmong (flag : Node → Bool) : List Node → List Node
  | [] => []
  | c :: cs => flaggedFaults flag c ++ flaggedFaultsAmong flag cs

end

/-- How an absent literal is called. -/
def absentLiteral : Literal → String
  | .decimal => "decimal_integer_literal"
  | .hex => "hex_integer_literal"
  | .octal => "octal_integer_literal"
  | .binary => "binary_integer_literal"
  | .real => "decimal_floating_point_literal"
  | .character => "character_literal"
  | .string => "string_literal"

/-- How an absent token is called. -/
def absentName : Kind → String
  | .sign text => text
  | .identifier => "identifier"
  | .literal kind => absentLiteral kind
  | .lacking name => name
  | _ => ""

/-- The start of a text that was passed over, to be shown in a message. -/
def excerpt (text : String) : String :=
  String.ofList ((trim (firstLine text.toList)).take 24)

/-- What a message says of a fault or an absent token. -/
def faultDetail (source : String) (n : Node) : String :=
  if n.isAbsent then "missing `" ++ absentName n.kind ++ "`"
  else
    let shown := excerpt (n.textIn source)
    if shown = "" then "unexpected input" else "unexpected `" ++ shown ++ "`"

/-- The finding on a fault or an absent token in the source of that number. -/
def faultFinding (number : Nat) (source : String) (n : Node) : Finding :=
  .of .syntaxError (some ⟨number, n.extent⟩) (some (faultDetail source n)) []

/-- The findings on the tree of the source of that number, by the flags of its nodes. -/
def flaggedReport (flag : Node → Bool) (number : Nat) (source : String) (root : Node) : Report :=
  (flaggedFaults flag root).map (faultFinding number source)

/-- The findings on the tree of the source of that number. -/
def faultReport (number : Nat) (source : String) (root : Node) : Report :=
  flaggedReport isFlagged number source root

end ViewBinding.Java
