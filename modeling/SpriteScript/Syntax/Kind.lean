-- The kinds of inner nodes of a syntax tree.
namespace SpriteScript

inductive NodeKind where
  -- the file and its declarations
  | sourceFile | packageClause | importDecl | importSpec | varDecl | varSpec | constDecl
  | constSpec | typeDecl | funcDecl | receiver | paramList | param | result | name
  -- types
  | typeRef | pointerType | sliceType | mapType | chanType | funcType | structType | fieldDecl
  | interfaceType | methodSpec
  -- statements
  | block | exprStmt | assignStmt | defineStmt | incDecStmt | sendStmt | returnStmt | ifStmt
  | forStmt | forClause | rangeClause | switchStmt | caseClause | selectStmt | commClause
  | branchStmt | exprList
  -- expressions
  | nameRef | literal | parenExpr | selectorExpr | callExpr | commandCall | argList | indexExpr
  | compositeLit | litBody | keyedElement | unaryExpr | binaryExpr | funcLit | lambdaExpr
  | lambdaParams | listLit | mapLit
  -- tokens that the parser skipped
  | error
deriving DecidableEq, Repr, Inhabited, Hashable

namespace NodeKind

-- The name under which a kind is reported.
def label : NodeKind → String
  | sourceFile => "SOURCE_FILE"
  | packageClause => "PACKAGE_CLAUSE"
  | importDecl => "IMPORT_DECL"
  | importSpec => "IMPORT_SPEC"
  | varDecl => "VAR_DECL"
  | varSpec => "VAR_SPEC"
  | constDecl => "CONST_DECL"
  | constSpec => "CONST_SPEC"
  | typeDecl => "TYPE_DECL"
  | funcDecl => "FUNC_DECL"
  | receiver => "RECEIVER"
  | paramList => "PARAM_LIST"
  | param => "PARAM"
  | result => "RESULT"
  | name => "NAME"
  | typeRef => "TYPE_REF"
  | pointerType => "POINTER_TYPE"
  | sliceType => "SLICE_TYPE"
  | mapType => "MAP_TYPE"
  | chanType => "CHAN_TYPE"
  | funcType => "FUNC_TYPE"
  | structType => "STRUCT_TYPE"
  | fieldDecl => "FIELD_DECL"
  | interfaceType => "INTERFACE_TYPE"
  | methodSpec => "METHOD_SPEC"
  | block => "BLOCK"
  | exprStmt => "EXPR_STMT"
  | assignStmt => "ASSIGN_STMT"
  | defineStmt => "DEFINE_STMT"
  | incDecStmt => "INC_DEC_STMT"
  | sendStmt => "SEND_STMT"
  | returnStmt => "RETURN_STMT"
  | ifStmt => "IF_STMT"
  | forStmt => "FOR_STMT"
  | forClause => "FOR_CLAUSE"
  | rangeClause => "RANGE_CLAUSE"
  | switchStmt => "SWITCH_STMT"
  | caseClause => "CASE_CLAUSE"
  | selectStmt => "SELECT_STMT"
  | commClause => "COMM_CLAUSE"
  | branchStmt => "BRANCH_STMT"
  | exprList => "EXPR_LIST"
  | nameRef => "NAME_REF"
  | literal => "LITERAL"
  | parenExpr => "PAREN_EXPR"
  | selectorExpr => "SELECTOR_EXPR"
  | callExpr => "CALL_EXPR"
  | commandCall => "COMMAND_CALL"
  | argList => "ARG_LIST"
  | indexExpr => "INDEX_EXPR"
  | compositeLit => "COMPOSITE_LIT"
  | litBody => "LIT_BODY"
  | keyedElement => "KEYED_ELEMENT"
  | unaryExpr => "UNARY_EXPR"
  | binaryExpr => "BINARY_EXPR"
  | funcLit => "FUNC_LIT"
  | lambdaExpr => "LAMBDA_EXPR"
  | lambdaParams => "LAMBDA_PARAMS"
  | listLit => "LIST_LIT"
  | mapLit => "MAP_LIT"
  | error => "ERROR"

def isType : NodeKind → Bool
  | typeRef | pointerType | sliceType | mapType | chanType | funcType | structType
  | interfaceType => true
  | _ => false

def isExpr : NodeKind → Bool
  | nameRef | literal | parenExpr | selectorExpr | callExpr | commandCall | indexExpr
  | compositeLit | unaryExpr | binaryExpr | funcLit | lambdaExpr | listLit | mapLit => true
  | _ => false

end NodeKind

end SpriteScript
