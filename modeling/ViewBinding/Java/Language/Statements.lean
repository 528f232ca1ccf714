import ViewBinding.Java.Language.Expressions

/-!
# The statements of Java

The rules of statements and of what only statements consist of.
-/

namespace ViewBinding.Java.Language

open Parsing Parsing.Rule

/-- The rules of simple statements. -/
def simpleStatements : List Definition := [
  { name := "statement", standing := .family,
    rule := choice [rule "declaration", rule "expressionStatement", rule "labeledStatement",
      rule "ifStatement", rule "whileStatement", rule "forStatement", rule "forEachStatement",
      rule "block", ";", rule "assertStatement", rule "doStatement", rule "breakStatement",
      rule "continueStatement", rule "returnStatement", rule "yieldStatement",
      rule "switchExpression", rule "synchronizedStatement", rule "localVariables",
      rule "throwStatement", rule "tryStatement", rule "resourceStatement"] },
  { name := "block", rule := chain ["\x7b", many (rule "statement"), "\x7d"] },
  { name := "expressionStatement", rule := seq (rule "expression") ";" },
  { name := "labeledStatement", rule := chain ["identifier", ":", rule "statement"] },
  { name := "assertStatement",
    rule := alt (chain ["assert", rule "expression", ";"])
      (chain ["assert", rule "expression", ":", rule "expression", ";"]) },
  { name := "doStatement",
    rule := chain ["do", as "body" (rule "statement"), "while",
      as "condition" (rule "parenthesized"), ";"] },
  { name := "breakStatement", rule := chain ["break", optional "identifier", ";"] },
  { name := "continueStatement", rule := chain ["continue", optional "identifier", ";"] },
  { name := "returnStatement", rule := chain ["return", optional (rule "expression"), ";"] },
  { name := "yieldStatement", rule := chain ["yield", rule "expression", ";"] },
  { name := "synchronizedStatement",
    rule := chain ["synchronized", rule "parenthesized", as "body" (rule "block")] },
  { name := "throwStatement", rule := chain ["throw", rule "expression", ";"] }]

/-- The rules of statements with handlers. -/
def tryStatements : List Definition := [
  { name := "tryStatement",
    rule := chain ["try", as "body" (rule "block"),
      alt (many1 (rule "catchClause")) (seq (many (rule "catchClause")) (rule "finallyClause"))] },
  { name := "catchClause",
    rule := chain ["catch", "(", rule "catchParameter", ")", as "body" (rule "block")] },
  { name := "catchParameter",
    rule := chain [optional (rule "modifiers"), rule "catchType", rule "declaratorName"] },
  { name := "catchType", rule := separated (rule "plainType") "|" },
  { name := "finallyClause", rule := seq "finally" (rule "block") },
  { name := "resourceStatement",
    rule := chain ["try", as "resources" (rule "resources"), as "body" (rule "block"),
      many (rule "catchClause"), optional (rule "finallyClause")] },
  { name := "resources",
    rule := chain ["(", separated (rule "resource") ";", optional ";", ")"] },
  { name := "resource",
    rule := choice [
      chain [optional (rule "modifiers"), as "type" (rule "plainType"), rule "declaratorName", "=",
        as "value" (rule "expression")],
      "identifier", rule "fieldAccess"] }]

/-- The rules of branches and loops. -/
def loops : List Definition := [
  { name := "ifStatement",
    rule := rightward 0 (chain ["if", as "condition" (rule "parenthesized"),
      as "consequence" (rule "statement"),
      optional (seq "else" (as "alternative" (rule "statement")))]) },
  { name := "whileStatement",
    rule := chain ["while", as "condition" (rule "parenthesized"), as "body" (rule "statement")] },
  { name := "forStatement",
    rule := chain ["for", "(",
      alt (as "init" (rule "localVariables"))
        (seq (listedOrNone (as "init" (rule "expression"))) ";"),
      as "condition" (optional (rule "expression")), ";",
      listedOrNone (as "update" (rule "expression")), ")", as "body" (rule "statement")] },
  { name := "forEachStatement",
    rule := chain ["for", "(", optional (rule "modifiers"), as "type" (rule "plainType"),
      rule "declaratorName", ":", as "value" (rule "expression"), ")",
      as "body" (rule "statement")] }]

/-- The rules of statements. -/
def statements : List Definition :=
  simpleStatements ++ tryStatements ++ loops

end ViewBinding.Java.Language
