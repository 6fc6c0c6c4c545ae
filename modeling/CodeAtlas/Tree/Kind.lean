/-! # Kinds of nodes

The kinds of nodes that extraction looks at, out of those of the Java grammar.
-/

namespace CodeAtlas.Kind

def program : String := "program"
def faulty : String := "ERROR"

/-- Comments are named children and stand anywhere. -/
def comments : List String := ["line_comment", "block_comment", "comment"]

def packageDeclaration : String := "package_declaration"
def importDeclaration : String := "import_declaration"
def identifier : String := "identifier"

def qualifiedNames : List String := ["identifier", "scoped_identifier"]

def classDeclaration : String := "class_declaration"
def interfaceDeclaration : String := "interface_declaration"

def typeDeclarations : List String := [classDeclaration, interfaceDeclaration]

def superInterfaces : String := "super_interfaces"
def extendsInterfaces : String := "extends_interfaces"
def typeList : String := "type_list"
def typeIdentifier : String := "type_identifier"
def scopedType : String := "scoped_type_identifier"
def genericType : String := "generic_type"

/-- Annotations, which may stand before a type. -/
def annotations : List String := ["marker_annotation", "annotation"]

def modifiers : String := "modifiers"
def methodDeclaration : String := "method_declaration"

def fieldDeclarations : List String := ["field_declaration", "constant_declaration"]

def formalParameter : String := "formal_parameter"
def spreadParameter : String := "spread_parameter"

def methodInvocation : String := "method_invocation"
def variableDeclarator : String := "variable_declarator"
def enhancedFor : String := "enhanced_for_statement"
def resource : String := "resource"
def assignment : String := "assignment_expression"
def fieldAccess : String := "field_access"
def parenthesized : String := "parenthesized_expression"

end CodeAtlas.Kind
