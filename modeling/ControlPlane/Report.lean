/-
# Reports

Loading a document or running a command can fail for a reason that is itself the
consequence of another. A report names the reasons, the outermost first. What the
file system or the reader of a notation has to say is kept as a kind of reason, not as
a text.
-/

namespace ControlPlane

/-- One reason in a report. -/
inductive Cause
  | stated (text : String)
  /-- A text is not a document of the expected notation and shape. -/
  | unreadableText
  /-- A file cannot be read. -/
  | unreadableFile
deriving DecidableEq

/-- Reasons, the outermost first. -/
abbrev Report := List Cause

def Cause.text : Cause → String
  | .stated text => text
  | .unreadableText => "the text is not a document of the expected shape"
  | .unreadableFile => "the file cannot be read"

namespace Report

/-- A reason on its own. -/
def because (text : String) : Report := [.stated text]

/-- A report with a further reason around it. -/
def within (context : String) (report : Report) : Report :=
  .stated context :: report

/-- Causes on lines of their own, numbered from zero. -/
def numbered (causes : List Cause) : List String :=
  causes.zipIdx.map fun (cause, index) => "    " ++ toString index ++ ": " ++ cause.text

/-- How a report is shown to a reader: the outermost reason, then what caused it. A cause
that stands alone has no number. -/
def render (report : Report) : String :=
  match report with
  | [] => "Error"
  | [cause] => "Error: " ++ cause.text
  | [cause, inner] => "Error: " ++ cause.text ++ "\n\nCaused by:\n    " ++ inner.text
  | cause :: causes =>
      "Error: " ++ cause.text ++ "\n\nCaused by:\n" ++ "\n".intercalate (numbered causes)

end Report

/-- A result whose failure gets a further reason around it. -/
def inContext {α : Type} (context : String) : Except Report α → Except Report α :=
  Except.mapError (Report.within context)

/-- Refuse if there is something to refuse. -/
def refuse {α ε : Type} (offence : Option α) (cause : α → ε) : Except ε Unit :=
  match offence with
  | some offender => .error (cause offender)
  | none => .ok ()

end ControlPlane
