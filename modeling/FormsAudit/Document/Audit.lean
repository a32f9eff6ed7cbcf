import FormsAudit.Diagnostic
import FormsAudit.Document.Structure
import FormsAudit.Markup.Position
import FormsAudit.ScriptIndex

/-!
# The audit of a document

Every `Application` element of a document of that type is asked for its three script attributes.
The first fault of the document's form is reported after the findings so far and ends the audit.
Only a source that cannot be read to the verdict has no answer.
-/

namespace FormsAudit.Document

open Markup

/-- The attributes of an application that name scripts. -/
def scriptAttributes : List String :=
  ["preScript", "postScript", "provisioningScript"]

/-- What is wrong with one script attribute. -/
def attributeFindings (index : ScriptIndex) (location : Location)
    (attributes : List (String × String)) (name : String) : List Diagnostic :=
  match attributes.lookup name with
  | none => [.missingScriptAttribute location name]
  | some value =>
    match index.resolve value with
    | .missing => [.missingScriptFile location name value]
    | .casingMismatch canonical =>
      [.inconsistentScriptCasing location name value canonical]
    | .found => []

/-- What is wrong with the script attributes of an application, in the order of the attributes. -/
def applicationFindings (index : ScriptIndex) (location : Location)
    (attributes : List (String × String)) : List Diagnostic :=
  scriptAttributes.flatMap (attributeFindings index location attributes)

/-- What is wrong with an element's script attributes: nothing unless it is an application of a
document of that type. -/
def elementFindings (index : ScriptIndex) (locate : Nat → Location) (state : State)
    (element : Element) : List Diagnostic :=
  if state.isApplication && element.name == applicationName.toUTF8.toList then
    applicationFindings index (locate element.start) element.attributes
  else
    []

variable [WideDecoders]

/-- The findings of the tokens up to the first fault, and the fault or the state after them. -/
def auditTokens (index : ScriptIndex) (locate : Nat → Location) (state : State) :
    List Token → List Diagnostic × Except Failure State
  | [] => ([], .ok state)
  | token :: rest =>
    match state.accept token with
    | .error failure => ([], .error failure)
    | .ok (next, element) =>
      let findings := (element.map (elementFindings index locate next)).getD []
      let (others, outcome) := auditTokens index locate next rest
      (findings ++ others, outcome)

/-- What the end of the tokens means for the document. -/
def endingFailure (state : State) : Ending → Except SystemError (Option Failure)
  | .complete offset => .ok (state.finish offset)
  | .rejected offset reason => .ok (some ⟨offset, .token state.encoding reason⟩)
  | .unreadable error => .error error

/-- The diagnostic of a fault. -/
def Failure.diagnostic (locate : Nat → Location) (failure : Failure) : Diagnostic :=
  .notWellFormed (locate failure.offset) failure.fault.message

/-- The location of an offset of a source. -/
def locationIn (file : String) (lines : LineIndex) (offset : Nat) : Location :=
  let (line, column) := lines.locate offset
  ⟨file, line, column, none⟩

/-- The diagnostics of the document that the source yields, reported against `file`. -/
def audit (file : String) (source : Source) (index : ScriptIndex) :
    Except SystemError (List Diagnostic) :=
  let locate := locationIn file (.ofSource source)
  let reading := source.tokens
  match auditTokens index locate (.initial source.signature.encoding) reading.tokens with
  | (findings, .error failure) => .ok (findings ++ [failure.diagnostic locate])
  | (findings, .ok state) =>
    match endingFailure state reading.ending with
    | .error error => .error error
    | .ok none => .ok findings
    | .ok (some failure) => .ok (findings ++ [failure.diagnostic locate])

end FormsAudit.Document
