import SchemaBaseline.Gate.Step

/-!
# Views of a gate

What those outside see of a validation: its status, its report, the outcome of asking for it, the
stored baseline as text, and a sign of life. Each view is a document value. A breakdown has no
view.
-/

namespace SchemaBaseline.Gate

open Files (Path Tree)
open Time (Stamp)

/-- A time as shown, or null. -/
def timeValue (t : Option Stamp) : Value :=
  .ofTextOrNull (t.map Stamp.display)

/-- The entries that tell the status of a validation. -/
def statusEntries (g : Gate) : Entries := [
  ("status", .text g.progress.status.label), ("is_valid", .bool g.progress.isValid),
  ("mode", .text g.mode.label), ("validated_at", timeValue g.progress.endedAt),
  ("error", .ofTextOrNull g.progress.error)]

def statusView (g : Gate) : Value :=
  .object (statusEntries g)

/-- The report on a validation, with the findings. -/
def reportView (g : Gate) : Value :=
  let (result, _) := g.progress.lastResult
  .object [("report", .text g.progress.report), ("result", result.toValue)]

def errorEntries (name message : String) : Entries :=
  [("error", .text name), ("message", .text message)]

/-- What someone who asked for the validation is told; `none` after a breakdown or a
cancellation. -/
def outcomeView (g : Gate) : CallEnd → Option Value
  | .returned result =>
    some (.object (statusEntries g ++ [("result", (result.map Findings.toValue).getD .null)]))
  | .incompatible result =>
    some (.object (errorEntries "SchemaIncompatibleError" (incompatibleMessage result) ++
      [("result", result.toValue)]))
  | .refused message => some (.object (errorEntries "AcquisitionError" message))
  | .broke _ => none
  | .cancelled => none

/-- A view of the stored baseline. -/
def baselineView (now : Stamp) (tree : Tree) (path : Path) (view : Snapshot → Value) :
    Option Value :=
  match Baseline.load now tree path with
  | .ok s => some (view s)
  | .error (.defect defect) =>
    some (.object (errorEntries "BaselineLoadError" (Baseline.LoadError.mk path defect).message))
  | .error (.broke _) => none

/-- The stored baseline as the text of a schema. -/
def sdlView (now : Stamp) (tree : Tree) (path : Path) : Option Value :=
  baselineView now tree path fun s =>
    match s.sdl with
    | .ok text => .object [("sdl", .text text)]
    | .error e => .object (errorEntries "SchemaRenderError" e.message)

/-- An overview of the stored baseline. -/
def summaryView (now : Stamp) (tree : Tree) (path : Path) : Option Value :=
  baselineView now tree path fun s => .object [("summary", .text s.summary)]

/-- A sign of life. -/
def healthView (g : Gate) : Value := .object [
  ("status", .text "ok"), ("schema_status", .text g.progress.status.label),
  ("schema_valid", .bool g.progress.isValid)]

end SchemaBaseline.Gate
