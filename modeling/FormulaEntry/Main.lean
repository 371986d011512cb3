import FormulaEntry.App.Actions
import FormulaEntry.Settings

/-! The program on a terminal. A line of input is typed into the calculator of the
window and answered by its result; the end of the input closes the window. Log
records go to the error output from the chosen level on. -/

namespace FormulaEntry.Terminal

/-- Nobody but the window's own subscribers. -/
def nobody : AppResponder Empty Unit Empty := ⟨nofun, nofun⟩

abbrev Window := World (App Empty) (AppSubscriber Empty) Unit

def opened : Window := ⟨App.create, (), []⟩

/-- The window after an action, and the log records of that action. -/
def act (w : Window) (a : AppAction Empty) : Window × List LogRecord :=
  let after := match a.perform nobody w with
    | .ok _ w => w
    | .error _ w => w
  let records := after.history.reverse.filterMap fun
    | .logged r => some r
    | _ => none
  ({ after with history := [] }, records)

def result (w : Window) : String := w.state.calculator.box.readout.elim "" Readout.text

def report (root : Settings.Root) (records : List LogRecord) : IO Unit := do
  for r in records do
    if root.level.severity ≤ r.level.severity then
      IO.eprintln (r.level.word ++ ": " ++ r.message)

partial def loop (root : Settings.Root) (input : IO.FS.Stream) (w : Window) : IO Unit := do
  let line ← input.getLine
  if line.isEmpty then
    report root (act w .escape).2
  else
    let typed := String.ofList (line.toList.filter (· ≠ '\n'))
    let (w, records) := act w (.box (.panel .calculator) (.type typed))
    report root records
    IO.println (result w)
    loop root input w

end FormulaEntry.Terminal

def main : IO Unit := do
  let word ← IO.getEnv FormulaEntry.Settings.levelVariable
  let launch := FormulaEntry.Settings.launch fun name =>
    if name = FormulaEntry.Settings.levelVariable then word else none
  IO.println launch.title
  IO.println launch.status
  FormulaEntry.Terminal.loop launch.root (← IO.getStdin) FormulaEntry.Terminal.opened
