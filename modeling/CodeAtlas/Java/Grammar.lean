import CodeAtlas.Java.Rule

/-! # The grammar of Java

The constructs of the Java language, from the file down to types and literals, each as a node with
named fields. Where the language needs more than one token to tell its constructs apart, the
grammar looks ahead first and then commits itself.
-/

namespace CodeAtlas.Java

inductive Symbol where
  -- files and statements
  | program | topLevel | statement | block | localVariables | ifStatement | whileStatement
  | doStatement | forStatement | enhancedFor | tryStatement | tryWithResources | catchClause
  | finallyClause | resource | labeled | expressionStatement | throwStatement
  | variableId | declarators | variableDeclarator | initializer | arrayInitializer
  -- declarations
  | qualifiedName | packageDeclaration | importDeclaration | moduleDeclaration | moduleDirective
  | modifiers | annotationUse | annotationArguments | elementValue
  | classDeclaration | interfaceDeclaration | enumDeclaration | recordDeclaration
  | annotationDeclaration | typeParameters | superclass | superInterfaces | extendsInterfaces
  | permits | typeList | throws | classBody | classMember | interfaceBody | interfaceMember
  | annotationBody | annotationMember | enumBody | enumConstant | methodDeclaration
  | constructorDeclaration | constructorBody | constructorInvocation | fieldDeclaration
  | constantDeclaration | formalParameters | formalParameter | receiverParameter | dimensions
  -- types
  | simpleType | type | anyType | typeArguments | wildcard
  -- expressions
  | expression | operand | primary | creation | arguments | parenthesized | lambda | cast
  | stringLiteral | dimensionsExpression
  | switchExpression | switchBlock | switchGroup | switchRule | switchLabel | pattern
  | recordPattern | constant | constantOperand
  deriving DecidableEq, Repr

namespace Grammar

open Rule

abbrev R := Rule Symbol

def all (rs : List R) : R := rs.foldr seq empty

def oneOf (rs : List R) : R := rs.foldr .or (test fun _ => false)

def opt (r : R) : R := .or r empty

def many1 (r : R) : R := seq r (many r)

/-- The rule at least once, with a separator between. -/
def sep (r : R) (separator : String) : R := seq r (many (seq (symbol separator) r))

/-- The rule any number of times, with commas between. -/
def commaSep (r : R) : R := opt (sep r ",")

/-- The first case whose condition would succeed, or a last resort. -/
def cases (cs : List (R × R)) (last : R) : R := cs.foldr (fun (c, r) rest => branch c r rest) last

def symbols (texts : List String) : R := oneOf (texts.map symbol)

def wordAhead (ws : List String) : R :=
  test fun ts => ts.head?.any fun t => t.sort == .word && ws.contains t.text

def symbolAhead (ss : List String) : R :=
  test fun ts => ts.head?.any fun t => t.sort == .symbol && ss.contains t.text

def always : R := empty

def integralWords : List String := ["byte", "short", "int", "long", "char"]

def floatingWords : List String := ["float", "double"]

/-- Words that open an expression of their own, and so are no names in one. -/
def expressionWords : List String :=
  ["new", "this", "super", "switch", "true", "false", "null", "boolean", "void"] ++
    integralWords ++ floatingWords

def statementWords : List String :=
  ["if", "while", "for", "do", "try", "return", "throw", "break", "continue", "assert",
    "synchronized", "package", "import", "class", "interface", "enum", "case", "default"]

/-- Modifiers that are single words, apart from `sealed`. -/
def modifierWords : List String :=
  ["public", "protected", "private", "abstract", "static", "final", "strictfp", "default",
    "synchronized", "native", "transient", "volatile"]

/-- Words that open no declaration of a variable when they open a statement. -/
def undeclaringWords : List String :=
  statementWords ++ expressionWords ++ modifierWords ++
    ["record", "yield", "open", "module", "with", "sealed"]

/-- Words with a meaning of their own after a point. -/
def memberWords : List String := ["new", "this", "super", "class"]

/-- A name where nothing else is expected. -/
def identifier : R := name "identifier" []

def declaredName : R := name "identifier" ["instanceof"]

def usedName : R := name "identifier" expressionWords

def memberName : R := name "identifier" memberWords

def typeName : R := name "type_identifier" ("class" :: expressionWords)

def primitive : R :=
  oneOf [node "integral_type" (oneOf (integralWords.map word)),
    node "floating_point_type" (oneOf (floatingWords.map word)),
    named "boolean" "boolean_type", named "void" "void_type"]

def someModifiers : R := opt (ref .modifiers)

def declarationAhead : R :=
  all [someModifiers, branch primitive always (notAhead (wordAhead undeclaringWords)),
    ref .type, declaredName]

def methodAhead : R :=
  all [someModifiers, opt (seq (ref .typeParameters) (many (ref .annotationUse))), ref .type,
    identifier, symbol "("]

def recordAhead : R := all [someModifiers, word "record", identifier, symbols ["(", "<"]]

/-- Skips tokens up to the bracket that closes as many as are open. -/
def afterClosing : (depth : Nat) → List Token → List Token
  | _, [] => []
  | depth, t :: ts =>
    if Reading.isSymbol "(" t then afterClosing (depth + 1) ts
    else if Reading.isSymbol ")" t then
      match depth with
      | 0 | 1 => ts
      | depth + 1 => afterClosing depth ts
    else afterClosing depth ts

/-- The parameters of a lambda expression and its arrow. -/
def lambdaAhead : R := test fun ts =>
  match ts with
  | t :: rest =>
    let next := if Reading.isSymbol "(" t then afterClosing 0 (t :: rest)
      else if t.sort == .word then rest else []
    next.head?.any (Reading.isSymbol "->")
  | [] => false

/-- A token that can follow a cast to a type of any kind. -/
def castFollows : R := test fun ts =>
  match ts.head? with
  | some t =>
    match t.sort with
    | .word => t.text != "instanceof"
    | .literal _ => true
    | .symbol => ["(", "!", "~", "\"", "\"\"\""].contains t.text
    | .finish => false
  | none => false

/-- A type in brackets in front of an operand. -/
def castAhead : R :=
  .or (all [symbol "(", sep (ref .anyType) "&", symbol ")", castFollows])
    (all [symbol "(", primitive, symbol ")", symbolAhead ["+", "-", "++", "--"]])

/-- A type in front of `::` or `.class`. -/
def typeMemberAhead : R :=
  seq (ref .type) (.or (symbol "::") (seq (symbol ".") (word "class")))

def enhancedForAhead : R :=
  all [word "for", symbol "(", someModifiers, ref .type, declaredName, opt (ref .dimensions),
    symbol ":"]

def yieldAhead : R :=
  all [word "yield", notAhead (symbolAhead ["=", ".", "[", "->", "::", "+=", "-=", "*=", "/=", "&=",
    "|=", "^=", "%=", "<<=", ":"])]

def statement : R :=
  cases [
    (symbol "\x7b", ref .block),
    (symbol ";", symbol ";"),
    (word "if", ref .ifStatement),
    (word "while", ref .whileStatement),
    (word "for", branch enhancedForAhead (ref .enhancedFor) (ref .forStatement)),
    (word "do", ref .doStatement),
    (seq (word "try") (symbol "("), ref .tryWithResources),
    (word "try", ref .tryStatement),
    (word "return", node "return_statement"
      (all [word "return", opt (ref .expression), symbol ";"])),
    (word "throw", ref .throwStatement),
    (word "break", node "break_statement" (all [word "break", opt identifier, symbol ";"])),
    (word "continue", node "continue_statement"
      (all [word "continue", opt identifier, symbol ";"])),
    (word "assert", node "assert_statement" (all [word "assert", ref .expression,
      opt (seq (symbol ":") (ref .expression)), symbol ";"])),
    (seq (word "synchronized") (symbol "("), node "synchronized_statement"
      (all [word "synchronized", ref .parenthesized, field "body" (ref .block)])),
    (word "switch", ref .switchExpression),
    (yieldAhead, node "yield_statement" (all [word "yield", ref .expression, symbol ";"])),
    (word "import", ref .importDeclaration),
    (seq (many (ref .annotationUse)) (word "package"), ref .packageDeclaration),
    (all [many (ref .annotationUse), opt (word "open"), word "module", ref .qualifiedName,
      symbol "\x7b"], ref .moduleDeclaration),
    (seq someModifiers (word "class"), ref .classDeclaration),
    (seq someModifiers (word "interface"), ref .interfaceDeclaration),
    (seq someModifiers (word "enum"), ref .enumDeclaration),
    (seq someModifiers (symbol "@interface"), ref .annotationDeclaration),
    (recordAhead, ref .recordDeclaration),
    (all [notAhead (wordAhead statementWords), identifier, symbol ":"], ref .labeled),
    (declarationAhead, ref .localVariables)]
  (seq (notAhead (wordAhead (statementWords ++ modifierWords))) (ref .expressionStatement))

/-- A variable's type, name and value in the head of a statement. -/
def resourceAhead : R := all [someModifiers, ref .type, declaredName]

def assignmentOperator : R :=
  oneOf [symbols ["=", "+=", "-=", "*=", "/=", "&=", "|=", "^=", "%=", "<<="],
    glued [">", ">", ">", "="], glued [">", ">", "="]]

def binaryOperator : R :=
  oneOf [glued [">", ">", ">"], glued [">", ">"], glued [">", "="],
    symbols [">", "<<", "<=", "<", "==", "!=", "&&", "||", "&", "|", "^", "+", "-", "*", "/", "%"]]

/-- What may follow an operand, where `operand` reads the operands of operators. -/
def operatorLink (operand : R) : R :=
  oneOf [
    seq (leftIs ["identifier", "field_access", "array_access"])
      (node "assignment_expression" (all [field "left" left,
        field "operator" assignmentOperator, field "right" (ref .expression)])),
    node "instanceof_expression" (all [field "left" left, word "instanceof", opt (word "final"),
      branch (ref .recordPattern) (field "pattern" (ref .recordPattern))
        (seq (field "right" (ref .anyType))
          (opt (field "name" (name "identifier" ["instanceof"]))))]),
    node "ternary_expression" (all [field "condition" left, symbol "?",
      field "consequence" (ref .expression), symbol ":", field "alternative" (ref .expression)]),
    node "binary_expression" (all [field "left" left, field "operator" binaryOperator,
      field "right" operand])]

def prefixed (operand : R) : List (R × R) := [
  (symbolAhead ["+", "-", "!", "~"], node "unary_expression"
    (seq (field "operator" (symbols ["+", "-", "!", "~"])) (field "operand" operand))),
  (symbolAhead ["++", "--"], node "update_expression" (seq (symbols ["++", "--"]) operand))]

def creationParts : R :=
  all [word "new", opt (all [many (ref .annotationUse), ref .typeArguments]),
    many (ref .annotationUse),
    field "type" (ref .simpleType), field "arguments" (ref .arguments), opt (ref .classBody)]

def primaryBase : R :=
  cases [
    (word "new", ref .creation),
    (symbol "(", ref .parenthesized),
    (symbolAhead ["\"", "\"\"\""], ref .stringLiteral),
    (literal, literal),
    (typeMemberAhead, branch (seq (ref .type) (symbol "::"))
      (node "method_reference" (all [ref .type, symbol "::", opt (ref .typeArguments),
        .or (word "new") identifier]))
      (node "class_literal" (all [ref .type, symbol ".", word "class"]))),
    (seq usedName (symbol "("), node "method_invocation"
      (seq (field "name" usedName) (field "arguments" (ref .arguments)))),
    (usedName, usedName)]
  (oneOf [named "this" "this", named "true" "true", named "false" "false",
    named "null" "null_literal",
    seq (named "super" "super") (ahead (symbols [".", "::"]))])

/-- What may follow a primary expression. -/
def primaryLink : R :=
  cases [
    (symbol "[", node "array_access" (all [field "array" left, symbol "[",
      field "index" (ref .expression), symbol "]"])),
    (symbol "::", node "method_reference" (all [left, symbol "::", opt (ref .typeArguments),
      .or (word "new") identifier])),
    (symbolAhead ["++", "--"], node "update_expression" (seq left (symbols ["++", "--"]))),
    (seq (symbol ".") (word "new"), node "object_creation_expression"
      (all [left, symbol ".", creationParts])),
    (seq (symbol ".") (word "class"), node "class_literal" (all [left, symbol ".", word "class"])),
    (seq (symbol ".") (symbolAhead ["\"", "\"\"\""]), node "template_expression"
      (all [field "template_processor" left, symbol ".",
        field "template_argument" (ref .stringLiteral)])),
    (all [symbol ".", opt (seq (named "super" "super") (symbol ".")), opt (ref .typeArguments),
        memberName, symbol "("],
      node "method_invocation" (all [field "object" left, symbol ".",
        opt (seq (named "super" "super") (symbol ".")),
        opt (field "type_arguments" (ref .typeArguments)), field "name" memberName,
        field "arguments" (ref .arguments)]))]
  (node "field_access" (all [field "object" left,
    opt (seq (symbol ".") (named "super" "super")), symbol ".",
    field "field" (.or (named "this" "this") memberName)]))

def rule : Symbol → R
  -- files and statements
  | .program => node "program" (seq (many (ref .topLevel)) finish)
  | .topLevel =>
    branch (seq (branch primitive always (notAhead (wordAhead
      (statementWords ++ expressionWords ++ ["record", "yield"])))) methodAhead)
      (ref .methodDeclaration) (ref .statement)
  | .statement => statement
  | .block => node "block" (all [symbol "\x7b", many (ref .statement), symbol "\x7d"])
  | .localVariables => node "local_variable_declaration"
      (all [someModifiers, field "type" (ref .type), ref .declarators, symbol ";"])
  | .ifStatement => node "if_statement" (all [word "if", field "condition" (ref .parenthesized),
      field "consequence" (ref .statement),
      branch (word "else") (seq (word "else") (field "alternative" (ref .statement))) empty])
  | .whileStatement => node "while_statement"
      (all [word "while", field "condition" (ref .parenthesized), field "body" (ref .statement)])
  | .doStatement => node "do_statement" (all [word "do", field "body" (ref .statement),
      word "while", field "condition" (ref .parenthesized), symbol ";"])
  | .forStatement => node "for_statement" (all [word "for", symbol "(",
      branch declarationAhead (field "init" (ref .localVariables))
        (seq (commaSep (field "init" (ref .expression))) (symbol ";")),
      opt (field "condition" (ref .expression)), symbol ";",
      commaSep (field "update" (ref .expression)), symbol ")", field "body" (ref .statement)])
  | .enhancedFor => node "enhanced_for_statement" (all [word "for", symbol "(", someModifiers,
      field "type" (ref .type), ref .variableId, symbol ":", field "value" (ref .expression),
      symbol ")", field "body" (ref .statement)])
  | .tryStatement => node "try_statement" (all [word "try", field "body" (ref .block),
      branch (word "catch") (seq (many1 (ref .catchClause)) (opt (ref .finallyClause)))
        (ref .finallyClause)])
  | .tryWithResources => node "try_with_resources_statement" (all [word "try",
      field "resources" (node "resource_specification" (all [symbol "(", sep (ref .resource) ";",
        opt (symbol ";"), symbol ")"])),
      field "body" (ref .block), many (ref .catchClause), opt (ref .finallyClause)])
  | .catchClause => node "catch_clause" (all [word "catch", symbol "(",
      node "catch_formal_parameter" (all [someModifiers,
        node "catch_type" (sep (ref .type) "|"), ref .variableId]),
      symbol ")", field "body" (ref .block)])
  | .finallyClause => node "finally_clause" (seq (word "finally") (ref .block))
  | .resource => node "resource" (branch resourceAhead
      (all [someModifiers, field "type" (ref .type), ref .variableId, symbol "=",
        field "value" (ref .expression)])
      (ref .primary))
  | .labeled => node "labeled_statement" (all [identifier, symbol ":", ref .statement])
  | .expressionStatement => node "expression_statement" (seq (ref .expression) (symbol ";"))
  | .throwStatement => node "throw_statement" (all [word "throw", ref .expression, symbol ";"])
  | .variableId => seq (field "name" declaredName) (opt (field "dimensions" (ref .dimensions)))
  | .declarators => sep (field "declarator" (ref .variableDeclarator)) ","
  | .variableDeclarator => node "variable_declarator" (seq (ref .variableId)
      (branch (symbol "=") (seq (symbol "=") (field "value" (ref .initializer))) empty))
  | .initializer => branch (symbol "\x7b") (ref .arrayInitializer) (ref .expression)
  | .arrayInitializer => node "array_initializer" (all [symbol "\x7b",
      commaSep (ref .initializer), opt (symbol ","), symbol "\x7d"])
  -- declarations
  | .qualifiedName => chain identifier (node "scoped_identifier"
      (all [field "scope" left, symbol ".", field "name" identifier]))
  | .packageDeclaration => node "package_declaration"
      (all [many (ref .annotationUse), word "package", ref .qualifiedName, symbol ";"])
  | .importDeclaration => node "import_declaration" (all [word "import", opt (word "static"),
      ref .qualifiedName, opt (seq (symbol ".") (node "asterisk" (symbol "*"))), symbol ";"])
  | .moduleDeclaration => node "module_declaration" (all [many (ref .annotationUse),
      opt (word "open"), word "module", field "name" (ref .qualifiedName),
      field "body" (node "module_body" (all [symbol "\x7b", many (ref .moduleDirective),
        symbol "\x7d"]))])
  | .moduleDirective =>
    let names (role : String) : R := sep (field role (ref .qualifiedName)) ","
    oneOf [
      node "requires_module_directive" (all [word "requires",
        many (node "requires_modifier" (.or (word "transitive") (word "static"))),
        field "module" (ref .qualifiedName), symbol ";"]),
      node "exports_module_directive" (all [word "exports", field "package" (ref .qualifiedName),
        opt (seq (word "to") (names "modules")), symbol ";"]),
      node "opens_module_directive" (all [word "opens", field "package" (ref .qualifiedName),
        opt (seq (word "to") (names "modules")), symbol ";"]),
      node "uses_module_directive" (all [word "uses", field "type" (ref .qualifiedName),
        symbol ";"]),
      node "provides_module_directive" (all [word "provides",
        field "provided" (ref .qualifiedName), word "with", names "provider", symbol ";"])]
  | .modifiers => node "modifiers" (many1 (cases [
      (symbol "@", ref .annotationUse),
      (seq (word "sealed") (.or identifier (symbol "@")), word "sealed"),
      (all [word "non", symbol "-", word "sealed"],
        all [word "non", symbol "-", word "sealed"])]
      (oneOf (modifierWords.map word))))
  | .annotationUse => branch (all [symbol "@", ref .qualifiedName, symbol "("])
      (node "annotation" (all [symbol "@", field "name" (ref .qualifiedName),
        field "arguments" (ref .annotationArguments)]))
      (node "marker_annotation" (seq (symbol "@") (field "name" (ref .qualifiedName))))
  | .annotationArguments => node "annotation_argument_list" (all [symbol "(",
      cases [(symbol ")", empty),
        (seq identifier (symbol "="), sep (node "element_value_pair"
          (all [field "key" identifier, symbol "=", field "value" (ref .elementValue)])) ",")]
        (ref .elementValue),
      symbol ")"])
  | .elementValue => cases [
      (symbol "\x7b", node "element_value_array_initializer" (all [symbol "\x7b",
        commaSep (ref .elementValue), opt (symbol ","), symbol "\x7d"])),
      (symbol "@", ref .annotationUse)]
      (ref .expression)
  | .classDeclaration => node "class_declaration" (all [someModifiers, word "class",
      field "name" identifier, opt (field "type_parameters" (ref .typeParameters)),
      opt (field "superclass" (ref .superclass)),
      opt (field "interfaces" (ref .superInterfaces)),
      opt (field "permits" (ref .permits)), field "body" (ref .classBody)])
  | .interfaceDeclaration => node "interface_declaration" (all [someModifiers,
      word "interface", field "name" identifier,
      opt (field "type_parameters" (ref .typeParameters)), opt (ref .extendsInterfaces),
      opt (field "permits" (ref .permits)), field "body" (ref .interfaceBody)])
  | .enumDeclaration => node "enum_declaration" (all [someModifiers, word "enum",
      field "name" identifier, opt (field "interfaces" (ref .superInterfaces)),
      field "body" (ref .enumBody)])
  | .recordDeclaration => node "record_declaration" (all [someModifiers, word "record",
      field "name" identifier, opt (field "type_parameters" (ref .typeParameters)),
      field "parameters" (ref .formalParameters),
      opt (field "interfaces" (ref .superInterfaces)), field "body" (ref .classBody)])
  | .annotationDeclaration => node "annotation_type_declaration" (all [someModifiers,
      symbol "@interface", field "name" identifier, field "body" (ref .annotationBody)])
  | .typeParameters => node "type_parameters" (all [symbol "<",
      sep (node "type_parameter" (all [many (ref .annotationUse), name "type_identifier" [],
        opt (node "type_bound" (seq (word "extends") (sep (ref .anyType) "&")))])) ",",
      symbol ">"])
  | .superclass => node "superclass" (seq (word "extends") (ref .anyType))
  | .superInterfaces => node "super_interfaces" (seq (word "implements") (ref .typeList))
  | .extendsInterfaces => node "extends_interfaces" (seq (word "extends") (ref .typeList))
  | .permits => node "permits" (seq (word "permits") (ref .typeList))
  | .typeList => node "type_list" (sep (ref .anyType) ",")
  | .throws => node "throws" (seq (word "throws") (sep (ref .anyType) ","))
  | .classBody => node "class_body" (all [symbol "\x7b", many (ref .classMember), symbol "\x7d"])
  | .classMember => cases [
      (symbol ";", symbol ";"),
      (symbol "\x7b", ref .block),
      (seq (word "static") (symbol "\x7b"),
        node "static_initializer" (seq (word "static") (ref .block))),
      (seq someModifiers (word "class"), ref .classDeclaration),
      (seq someModifiers (word "interface"), ref .interfaceDeclaration),
      (seq someModifiers (word "enum"), ref .enumDeclaration),
      (seq someModifiers (symbol "@interface"), ref .annotationDeclaration),
      (recordAhead, ref .recordDeclaration),
      (all [someModifiers, opt (ref .typeParameters), identifier, symbol "("],
        ref .constructorDeclaration),
      (all [someModifiers, identifier, symbol "\x7b"], node "compact_constructor_declaration"
        (all [someModifiers, field "name" identifier, field "body" (ref .block)])),
      (methodAhead, ref .methodDeclaration)]
      (ref .fieldDeclaration)
  | .interfaceBody => node "interface_body"
      (all [symbol "\x7b", many (ref .interfaceMember), symbol "\x7d"])
  | .interfaceMember => cases [
      (symbol ";", symbol ";"),
      (seq someModifiers (word "class"), ref .classDeclaration),
      (seq someModifiers (word "interface"), ref .interfaceDeclaration),
      (seq someModifiers (word "enum"), ref .enumDeclaration),
      (seq someModifiers (symbol "@interface"), ref .annotationDeclaration),
      (recordAhead, ref .recordDeclaration),
      (methodAhead, ref .methodDeclaration)]
      (ref .constantDeclaration)
  | .annotationBody => node "annotation_type_body"
      (all [symbol "\x7b", many (ref .annotationMember), symbol "\x7d"])
  | .annotationMember => cases [
      (symbol ";", symbol ";"),
      (seq someModifiers (word "class"), ref .classDeclaration),
      (seq someModifiers (word "interface"), ref .interfaceDeclaration),
      (seq someModifiers (word "enum"), ref .enumDeclaration),
      (seq someModifiers (symbol "@interface"), ref .annotationDeclaration),
      (methodAhead, node "annotation_type_element_declaration" (all [someModifiers,
        field "type" (ref .type), field "name" identifier, symbol "(", symbol ")",
        opt (field "dimensions" (ref .dimensions)),
        opt (seq (word "default") (field "value" (ref .elementValue))), symbol ";"]))]
      (ref .constantDeclaration)
  | .enumBody => node "enum_body" (all [symbol "\x7b", commaSep (ref .enumConstant),
      opt (symbol ","),
      opt (node "enum_body_declarations" (seq (symbol ";") (many (ref .classMember)))),
      symbol "\x7d"])
  | .enumConstant => node "enum_constant" (all [someModifiers, field "name" identifier,
      opt (field "arguments" (ref .arguments)), opt (field "body" (ref .classBody))])
  | .methodDeclaration => node "method_declaration" (all [someModifiers,
      opt (seq (field "type_parameters" (ref .typeParameters)) (many (ref .annotationUse))),
      field "type" (ref .type), field "name" identifier,
      field "parameters" (ref .formalParameters),
      opt (field "dimensions" (ref .dimensions)), opt (ref .throws),
      branch (symbol ";") (symbol ";") (field "body" (ref .block))])
  | .constructorDeclaration => node "constructor_declaration" (all [someModifiers,
      opt (field "type_parameters" (ref .typeParameters)), field "name" identifier,
      field "parameters" (ref .formalParameters), opt (ref .throws),
      field "body" (ref .constructorBody)])
  | .constructorBody => node "constructor_body" (all [symbol "\x7b",
      branch (.or
          (all [opt (ref .typeArguments), .or (word "this") (word "super"), symbol "("])
          (all [usedName, many (seq (symbol ".") memberName), symbol ".",
            opt (ref .typeArguments), word "super", symbol "("]))
        (ref .constructorInvocation) empty,
      many (ref .statement), symbol "\x7d"])
  | .constructorInvocation => node "explicit_constructor_invocation" (all [
      .or
        (seq (opt (field "type_arguments" (ref .typeArguments)))
          (field "constructor" (.or (named "this" "this") (named "super" "super"))))
        (all [field "object" (chain usedName (node "field_access"
            (all [field "object" left, symbol ".", field "field" memberName]))),
          symbol ".", opt (field "type_arguments" (ref .typeArguments)),
          field "constructor" (named "super" "super")]),
      field "arguments" (ref .arguments), symbol ";"])
  | .fieldDeclaration => node "field_declaration"
      (all [someModifiers, field "type" (ref .type), ref .declarators, symbol ";"])
  | .constantDeclaration => node "constant_declaration"
      (all [someModifiers, field "type" (ref .type), ref .declarators, symbol ";"])
  | .formalParameters =>
    let parameters : R := commaSep (ref .formalParameter)
    node "formal_parameters" (all [symbol "(",
      branch (ref .receiverParameter)
        (seq (ref .receiverParameter) (opt (seq (symbol ",") parameters))) parameters,
      symbol ")"])
  | .formalParameter => branch (all [someModifiers, ref .type, symbol "..."])
      (node "spread_parameter" (all [someModifiers, ref .type, symbol "...",
        many (ref .annotationUse), ref .variableDeclarator]))
      (node "formal_parameter"
        (all [someModifiers, field "type" (ref .type), ref .variableId]))
  | .receiverParameter => node "receiver_parameter" (all [many (ref .annotationUse), ref .type,
      many (seq usedName (symbol ".")), named "this" "this"])
  | .dimensions => node "dimensions"
      (many1 (all [many (ref .annotationUse), symbol "[", symbol "]"]))
  -- types
  | .simpleType => chain (.or primitive typeName) (oneOf [
      seq (leftIs ["type_identifier", "scoped_type_identifier"])
        (node "generic_type" (seq left (ref .typeArguments))),
      seq (leftIs ["type_identifier", "scoped_type_identifier", "generic_type"])
        (node "scoped_type_identifier"
          (all [left, symbol ".", many (ref .annotationUse), typeName]))])
  | .type => chain (ref .simpleType) (node "array_type"
      (seq (field "element" left) (field "dimensions" (ref .dimensions))))
  | .anyType => branch (symbol "@")
      (node "annotated_type" (seq (many1 (ref .annotationUse)) (ref .type))) (ref .type)
  | .typeArguments => node "type_arguments" (all [symbol "<",
      commaSep (.or (ref .wildcard) (ref .anyType)), symbol ">"])
  | .wildcard => node "wildcard" (all [many (ref .annotationUse), symbol "?",
      opt (.or (seq (word "extends") (ref .anyType))
        (seq (named "super" "super") (ref .anyType)))])
  -- expressions
  | .expression => chain (ref .operand) (operatorLink (ref .operand))
  | .operand => cases (prefixed (ref .operand) ++ [
      (lambdaAhead, ref .lambda),
      (castAhead, ref .cast),
      (word "switch", ref .switchExpression)])
      (ref .primary)
  | .primary => chain primaryBase primaryLink
  | .creation => branch
      (all [word "new", opt (seq (many (ref .annotationUse)) (ref .typeArguments)),
        many (ref .annotationUse), ref .simpleType, symbol "("])
      (node "object_creation_expression" creationParts)
      (node "array_creation_expression" (all [word "new", many (ref .annotationUse),
        field "type" (ref .simpleType),
        branch (ref .dimensions)
          (seq (field "dimensions" (ref .dimensions)) (field "value" (ref .arrayInitializer)))
          (seq (many1 (field "dimensions" (ref .dimensionsExpression)))
            (opt (field "dimensions" (ref .dimensions))))]))
  | .dimensionsExpression => node "dimensions_expr"
      (all [many (ref .annotationUse), symbol "[", ref .expression, symbol "]"])
  | .arguments => node "argument_list"
      (all [symbol "(", commaSep (ref .expression), symbol ")"])
  | .parenthesized => node "parenthesized_expression"
      (all [symbol "(", ref .expression, symbol ")"])
  | .lambda => node "lambda_expression" (all [
      field "parameters" (cases [
        (identifier, identifier),
        (all [symbol "(", identifier, symbols [",", ")"]], node "inferred_parameters"
          (all [symbol "(", sep identifier ",", symbol ")"]))]
        (ref .formalParameters)),
      symbol "->", field "body" (branch (symbol "\x7b") (ref .block) (ref .expression))])
  | .cast => node "cast_expression" (all [symbol "(", sep (field "type" (ref .anyType)) "&",
      symbol ")", field "value" (ref .operand)])
  | .stringLiteral =>
    let parts : R := many (.or literal (node "string_interpolation"
      (all [symbol "\\\x7b", ref .expression, symbol "\x7d"])))
    node "string_literal" (branch (symbol "\"")
      (all [symbol "\"", parts, symbol "\""])
      (all [symbol "\"\"\"", parts, symbol "\"\"\""]))
  | .switchExpression => node "switch_expression" (all [word "switch",
      field "condition" (ref .parenthesized), field "body" (ref .switchBlock)])
  | .switchBlock => node "switch_block" (all [symbol "\x7b",
      branch (seq (ref .switchLabel) (symbol "->")) (many (ref .switchRule))
        (many (ref .switchGroup)),
      symbol "\x7d"])
  | .switchGroup => node "switch_block_statement_group" (seq
      (many1 (seq (ref .switchLabel) (symbol ":"))) (many (ref .statement)))
  | .switchRule => node "switch_rule" (all [ref .switchLabel, symbol "->",
      cases [(symbol "\x7b", ref .block), (word "throw", ref .throwStatement)]
        (ref .expressionStatement)])
  | .switchLabel => node "switch_label" (branch (word "default") (word "default")
      (all [word "case",
        branch (ref .pattern) (ref .pattern) (sep (ref .constant) ","),
        opt (node "guard" (seq (word "when") (ref .constant)))]))
  | .pattern => node "pattern" (branch (ref .recordPattern) (ref .recordPattern)
      (node "type_pattern" (seq (ref .type) (name "identifier" ["instanceof", "when"]))))
  | .recordPattern => node "record_pattern" (seq
      (branch (seq typeName (symbol "<")) (ref .simpleType) usedName)
      (node "record_pattern_body" (all [symbol "(",
        commaSep (cases [
          (ref .recordPattern, ref .recordPattern),
          (seq (ref .type) declaredName, node "record_pattern_component"
            (seq (ref .type) declaredName))]
          (node "record_pattern_component" (node "underscore_pattern" (word "_")))),
        symbol ")"])))
  | .constant => chain (ref .constantOperand) (operatorLink (ref .constantOperand))
  | .constantOperand => cases (prefixed (ref .constantOperand) ++ [(castAhead, ref .cast)])
      (ref .primary)

end Grammar

/-- The greatest depth of nonterminals over a number of tokens. -/
def depthFor (count : Nat) : Nat := 32 * (count + 2)

/-- A tree with comments in front of its children. -/
def withComments (comments : List Node) : Node → Node
  | .mk l cs => .mk l (comments ++ cs)

/-- The tree of a source; none if the source is not Java. Comments at its start belong to it. -/
def parse (s : Source) : Option Node :=
  match Token.ofSource s with
  | none => none
  | some ts =>
    match Reading.readSymbol s Grammar.rule (depthFor ts.length) .program ⟨ts, ts.length, 0⟩ with
    | some (nodes, _) =>
      let (comments, rest) := Reading.splitComments nodes
      rest.head?.map (withComments comments)
    | none => none

/-- The tree of a source. One that is not Java has a single faulty node over all of it, since the
grammar does not recover from a fault. -/
def tree (s : Source) : Node :=
  let whole (kind : String) (children : List Node) : Node :=
    .over s ⟨kind, true, none, false⟩ (some (0, s.size)) none children
  (parse s).getD (whole Kind.program [whole Kind.faulty []])

end CodeAtlas.Java
