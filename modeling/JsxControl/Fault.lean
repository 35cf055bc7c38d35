import JsxControl.Tree.Basic

/-!
# Faults

Why an operation gave no result. A *complaint* is addressed to the author of the markup: it says
which rule of the pseudo-elements was broken, and where. All other faults say that a tree or a
document is not of the form that an operation needs.
-/

namespace JsxControl

/-- The rules of the pseudo-elements that markup can break. -/
inductive Rule
  | missingRequiredAttribute
  | unexpectedAttribute
  | invalidAttributeValueShape
  | unsupportedVariablePattern
  | orphanChainContinuation
  | malformedTerminalBranch
  | unreachableConstruct
  deriving DecidableEq, Repr

/-- A broken rule, what is wrong in words, and the place at fault if one is known. -/
structure Complaint where
  rule : Rule
  message : String
  place : Option Location

/-- Why an operation gave no result. -/
inductive Fault
  /-- The markup breaks a rule. -/
  | complaint (c : Complaint)
  /-- The root itself would have to be replaced, and nothing holds it. -/
  | rootReplaced (kind : Kind) (filename : String)
  /-- A document of a known kind lacks a required field. -/
  | missingField (kind : Kind) (field : String)
  /-- A type tag is a list or a record. -/
  | compoundTag
  /-- A range does not have two ends. -/
  | notPair
  /-- A record has no member of this name, or an unknown kind no field of it. -/
  | noMember (name : String)
  /-- A value that should be a record is something else. -/
  | notRecord
  /-- A value that should be a node is something else. -/
  | notNode
  /-- A node has no field of this name. -/
  | noField (name : String)
  /-- A node has not the fields of its kind. -/
  | wrongFields (kind : Kind)
  /-- The spelling of something is asked for that is no text. -/
  | notSpelled
  /-- A value has no items to go through. -/
  | notIterable
  /-- A value that should be a text is something else. -/
  | notText
  /-- A value that should be a number is something else. -/
  | notNumber
  /-- A value cannot be looked up, since it has parts. -/
  | notKey
  /-- A position lies outside its list. -/
  | outOfRange
  /-- A number is too large to be a position or a length. -/
  | tooLarge
  /-- The operation would not come to an end. -/
  | endless

/-- The message of a fault that has one. -/
def Fault.message? : Fault → Option String
  | .complaint c => some c.message
  | .rootReplaced kind filename =>
    some s!"cannot rewrite root {kind.label} of {filename} in place"
  | _ => none

end JsxControl
