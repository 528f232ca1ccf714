import ViewBinding.Java.Language.Expressions

/-!
# The declarations of Java

The rules of annotations, of the declarations of modules, packages, imports, types and their
members, and of types themselves.
-/

namespace ViewBinding.Java.Language

open Parsing Parsing.Rule

/-! ### Annotations -/

/-- The rules of annotations. -/
def annotationRules : List Definition := [
  { name := "annotationUse", standing := .hidden,
    rule := alt (rule "annotationMarker") (rule "annotation") },
  { name := "annotationMarker", rule := seq "@" (as "name" (rule "dottedName")) },
  { name := "annotation",
    rule := chain ["@", as "name" (rule "dottedName"),
      as "arguments" (rule "annotationArguments")] },
  { name := "annotationArguments",
    rule := chain ["(", alt (rule "elementValue") (listedOrNone (rule "elementPair")), ")"] },
  { name := "elementPair",
    rule := chain [as "key" anyName, "=", as "value" (rule "elementValue")] },
  { name := "elementValue", standing := .hidden,
    rule := weighing Weight.elementValue (choice [rule "expression", rule "elementArray",
      rule "annotationUse"]) },
  { name := "elementArray",
    rule := chain ["\x7b", listedOrNone (rule "elementValue"), optional ",", "\x7d"] }]

/-! ### Modules, packages and imports -/

/-- The names that a directive lists after a keyword. -/
def namesAfter (keyword part : String) : Rule :=
  optional (chain [keyword, as part (rule "dottedName"),
    many (seq "," (as part (rule "dottedName")))])

/-- The rules of the declarations in front of types. -/
def headers : List Definition := [
  { name := "declaration", standing := .family,
    rule := weighing Weight.declaration (choice [rule "module", rule "package", rule "import",
      rule "class", rule "record", rule "interface", rule "annotationType", rule "enum"]) },
  { name := "module",
    rule := chain [annotations, optional "open", "module", as "name" (rule "dottedName"),
      as "body" (rule "moduleBody")] },
  { name := "moduleBody", rule := chain ["\x7b", many (rule "moduleDirective"), "\x7d"] },
  { name := "moduleDirective", standing := .family,
    rule := choice [rule "requiresDirective", rule "exportsDirective", rule "opensDirective",
      rule "usesDirective", rule "providesDirective"] },
  { name := "requiresDirective",
    rule := chain ["requires", many (as "modifiers" (rule "requiresModifier")),
      as "module" (rule "dottedName"), ";"] },
  { name := "requiresModifier", rule := alt "transitive" "static" },
  { name := "exportsDirective",
    rule := chain ["exports", as "package" (rule "dottedName"), namesAfter "to" "modules", ";"] },
  { name := "opensDirective",
    rule := chain ["opens", as "package" (rule "dottedName"), namesAfter "to" "modules", ";"] },
  { name := "usesDirective", rule := chain ["uses", as "type" (rule "dottedName"), ";"] },
  { name := "providesDirective",
    rule := chain ["provides", as "provided" (rule "dottedName"), "with", rule "dottedName",
      many (seq "," (as "provider" (rule "dottedName"))), ";"] },
  { name := "package", rule := chain [annotations, "package", rule "dottedName", ";"] },
  { name := "import",
    rule := chain ["import", optional "static", rule "dottedName",
      optional (seq "." (rule "asterisk")), ";"] },
  { name := "asterisk", rule := "*" }]

/-! ### Types -/

/-- A role for the rule, or nothing. -/
def optionally (part name : String) : Rule :=
  optional (as part (rule name))

/-- The modifiers of a declaration. -/
def modified : Rule :=
  optional (rule "modifiers")

/-- The rules of enums and classes. -/
def classRules : List Definition := [
  { name := "enum",
    rule := chain [modified, "enum", as "name" "identifier",
      optionally "interfaces" "superInterfaces", as "body" (rule "enumBody")] },
  { name := "enumBody",
    rule := chain ["\x7b", listedOrNone (rule "enumConstant"), optional ",",
      optional (rule "enumMembers"), "\x7d"] },
  { name := "enumMembers", rule := seq ";" (many (rule "classMember")) },
  { name := "enumConstant",
    rule := chain [modified, as "name" "identifier", optionally "arguments" "arguments",
      optionally "body" "classBody"] },
  { name := "class",
    rule := chain [modified, "class", as "name" "identifier",
      optionally "type_parameters" "typeParameters", optionally "superclass" "superclass",
      optionally "interfaces" "superInterfaces", optionally "permits" "permits",
      as "body" (rule "classBody")] },
  { name := "modifiers",
    rule := many1 (choice [rule "annotationUse", "public", "protected", "private", "abstract",
      "static", "final", "strictfp", "default", "synchronized", "native", "transient", "volatile",
      "sealed", "non-sealed"]) },
  { name := "typeParameters", rule := chain ["<", listed (rule "typeParameter"), ">"] },
  { name := "typeParameter", rule := chain [annotations, typeName, optional (rule "typeBound")] },
  { name := "typeBound",
    rule := chain ["extends", rule "type", many (seq "&" (rule "type"))] },
  { name := "superclass", rule := seq "extends" (rule "type") },
  { name := "superInterfaces", rule := seq "implements" (rule "typeList") },
  { name := "typeList", rule := seq (rule "type") (many (seq "," (rule "type"))) },
  { name := "permits", rule := seq "permits" (rule "typeList") },
  { name := "classBody", rule := chain ["\x7b", many (rule "classMember"), "\x7d"] },
  { name := "classMember", standing := .inlined,
    rule := choice [rule "fields", rule "record", rule "method", rule "compactConstructor",
      rule "class", rule "interface", rule "annotationType", rule "enum", rule "block",
      rule "staticInitializer", rule "constructor", ";"] },
  { name := "staticInitializer", rule := seq "static" (rule "block") },
  { name := "constructor",
    rule := chain [modified, rule "constructorDeclarator", optional (rule "throwsClause"),
      as "body" (rule "constructorBody")] },
  { name := "constructorDeclarator", standing := .hidden,
    rule := chain [optionally "type_parameters" "typeParameters", as "name" "identifier",
      as "parameters" (rule "parameters")] },
  { name := "constructorBody",
    rule := chain ["\x7b", optional (rule "constructorCall"), many (rule "statement"), "\x7d"] },
  { name := "constructorCall",
    rule := chain [
      alt
        (seq (optionally "type_arguments" "typeArguments")
          (as "constructor" (alt "this" "super")))
        (chain [as "object" (rule "primary"), ".", optionally "type_arguments" "typeArguments",
          as "constructor" "super"]),
      as "arguments" (rule "arguments"), ";"] },
  { name := "dottedName", standing := .inlined,
    rule := choice ["identifier", rule "reservedName", rule "scopedName"] },
  { name := "scopedName",
    rule := chain [as "scope" (rule "dottedName"), ".", as "name" anyName] },
  { name := "fields",
    rule := chain [modified, as "type" (rule "plainType"), rule "declarators", ";"] },
  { name := "record",
    rule := chain [modified, "record", as "name" "identifier",
      optionally "type_parameters" "typeParameters", as "parameters" (rule "parameters"),
      optionally "interfaces" "superInterfaces", as "body" (rule "classBody")] }]

/-- The rules of interfaces and annotation types. -/
def interfaceRules : List Definition := [
  { name := "annotationType",
    rule := chain [modified, "@interface", as "name" "identifier",
      as "body" (rule "annotationTypeBody")] },
  { name := "annotationTypeBody",
    rule := chain ["\x7b", many (choice [rule "element", rule "constants", rule "class",
      rule "interface", rule "enum", rule "annotationType", ";"]), "\x7d"] },
  { name := "element",
    rule := chain [modified, as "type" (rule "plainType"), as "name" anyName, "(", ")",
      optionally "dimensions" "dimensions", optional (rule "defaultValue"), ";"] },
  { name := "defaultValue", standing := .hidden,
    rule := seq "default" (as "value" (rule "elementValue")) },
  { name := "interface",
    rule := chain [modified, "interface", as "name" "identifier",
      optionally "type_parameters" "typeParameters", optional (rule "extendsInterfaces"),
      optionally "permits" "permits", as "body" (rule "interfaceBody")] },
  { name := "extendsInterfaces", rule := seq "extends" (rule "typeList") },
  { name := "interfaceBody",
    rule := chain ["\x7b", many (choice [rule "constants", rule "enum", rule "method",
      rule "class", rule "interface", rule "record", rule "annotationType", ";"]), "\x7d"] },
  { name := "constants",
    rule := chain [modified, as "type" (rule "plainType"), rule "declarators", ";"] },
  { name := "declarators", standing := .hidden,
    rule := listed (as "declarator" (rule "declarator")) },
  { name := "declarator",
    rule := seq (rule "declaratorName") (optional (seq "=" (as "value" (rule "initializer")))) },
  { name := "declaratorName", standing := .hidden,
    rule := seq (as "name" (alt anyName "underscore_pattern"))
      (optionally "dimensions" "dimensions") },
  { name := "initializer", standing := .inlined,
    rule := alt (rule "expression") (rule "arrayInitializer") },
  { name := "arrayInitializer",
    rule := chain ["\x7b", listedOrNone (rule "initializer"), optional ",", "\x7d"] }]

/-- The rules of types. -/
def types : List Definition := [
  { name := "type", standing := .family, rule := alt (rule "plainType") (rule "annotatedType") },
  { name := "plainType", standing := .family,
    rule := alt (rule "simpleType") (rule "arrayType") },
  { name := "simpleType", standing := .inlined,
    rule := choice ["void_type", rule "integralType", rule "floatingType", "boolean_type",
      typeName, rule "scopedType", rule "genericType"] },
  { name := "annotatedType", rule := seq (many1 (rule "annotationUse")) (rule "plainType") },
  { name := "scopedType",
    rule := chain [choice [typeName, rule "scopedType", rule "genericType"], ".", annotations,
      typeName] },
  { name := "genericType",
    rule := deserving Weight.typeArguments
      (seq (alt typeName (rule "scopedType")) (rule "typeArguments")) },
  { name := "arrayType",
    rule := seq (as "element" (rule "plainType")) (as "dimensions" (rule "dimensions")) },
  { name := "integralType", rule := choice ["byte", "short", "int", "long", "char"] },
  { name := "floatingType", rule := alt "float" "double" }]

/-! ### Methods -/

/-- The rules of methods and their parameters. -/
def methods : List Definition := [
  { name := "method",
    rule := chain [modified, rule "methodHeader", alt (as "body" (rule "block")) ";"] },
  { name := "methodHeader", standing := .hidden,
    rule := chain [
      optional (seq (as "type_parameters" (rule "typeParameters")) annotations),
      as "type" (rule "plainType"), rule "methodDeclarator", optional (rule "throwsClause")] },
  { name := "methodDeclarator", standing := .hidden,
    rule := chain [as "name" anyName, as "parameters" (rule "parameters"),
      optionally "dimensions" "dimensions"] },
  { name := "parameters",
    rule := chain ["(",
      alt (rule "receiver")
        (seq (optional (seq (rule "receiver") ","))
          (listedOrNone (alt (rule "parameter") (rule "spread")))), ")"] },
  { name := "parameter",
    rule := chain [modified, as "type" (rule "plainType"), rule "declaratorName"] },
  { name := "receiver",
    rule := chain [annotations, rule "plainType", many (seq "identifier" "."), "this"] },
  { name := "spread",
    rule := chain [modified, rule "plainType", "...", annotations, rule "declarator"] },
  { name := "throwsClause", rule := seq "throws" (listed (rule "type")) },
  { name := "localVariables",
    rule := chain [modified, as "type" (rule "plainType"), rule "declarators", ";"] },
  { name := "compactConstructor",
    rule := chain [modified, as "name" "identifier", as "body" (rule "block")] },
  { name := "reservedName", standing := .hidden,
    rule := alt
      (weighing (-3) (called "identifier"
        (choice ["open", "module", "record", "with", "sealed"])))
      (called "identifier" "yield") }]

/-- The rules of declarations. -/
def declarations : List Definition :=
  annotationRules ++ headers ++ classRules ++ interfaceRules ++ types ++ methods

end ViewBinding.Java.Language
