import ScriptTriage.Tree

/-
Names for the kinds of node that the reader builds at several places and that mean nothing to lowering.
-/

namespace ScriptTriage

namespace Kind

def array : Kind := .other "array"
def arrayPattern : Kind := .other "array_pattern"
def object : Kind := .other "object"
def objectPattern : Kind := .other "object_pattern"
def pair : Kind := .other "pair"
def pairPattern : Kind := .other "pair_pattern"
def spreadElement : Kind := .other "spread_element"
def restPattern : Kind := .other "rest_pattern"
def assignmentPattern : Kind := .other "assignment_pattern"
def objectAssignmentPattern : Kind := .other "object_assignment_pattern"
def shorthand : Kind := .other "shorthand_property_identifier"
def shorthandPattern : Kind := .other "shorthand_property_identifier_pattern"
def memberExpression : Kind := .other "member_expression"
def subscriptExpression : Kind := .other "subscript_expression"
def sequence : Kind := .other "sequence_expression"
def formalParameters : Kind := .other "formal_parameters"
def arrowFunction : Kind := .other "arrow_function"
def functionExpression : Kind := .other "function_expression"
def generatorFunction : Kind := .other "generator_function"
def classExpression : Kind := .other "class"
def classDeclaration : Kind := .other "class_declaration"
def propertyIdentifier : Kind := .other "property_identifier"
def privateProperty : Kind := .other "private_property_identifier"
def newExpression : Kind := .other "new_expression"
def metaProperty : Kind := .other "meta_property"
def ternary : Kind := .other "ternary_expression"
def binary : Kind := .other "binary_expression"
def unary : Kind := .other "unary_expression"
def update : Kind := .other "update_expression"
def stringFragment : Kind := .other "string_fragment"

end Kind

end ScriptTriage
