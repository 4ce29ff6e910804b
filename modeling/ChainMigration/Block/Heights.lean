import ChainMigration.Block.Range

/-! # Height continuity

A walk over the heights of rows that records which heights of a range no row has. A height is
accepted if it lies in the range and goes on upwards; the heights passed over are missing. -/

namespace ChainMigration

/-- What a table promises about the heights of its rows. -/
inductive Continuity
  /-- Nothing. -/
  | none
  /-- Exactly one row for every height. -/
  | strict
  /-- At least one row for every height, rows of one height next to each other. -/
  | grouped
deriving DecidableEq

/-- The name of a continuity. -/
def Continuity.name : Continuity → String
  | .none => "none"
  | .strict => "strict"
  | .grouped => "grouped"

/-- Why a height is not accepted. -/
inductive HeightError
  /-- The height lies outside the range that was asked for. -/
  | outside (height : Nat) (range : BlockRange)
  /-- The height lies below the one that is due. -/
  | descending (height expected : Nat)
deriving DecidableEq

/-- The wording of a height error. -/
def HeightError.message : HeightError → String
  | .outside height range => s!"row height {height} is outside the requested range {range}"
  | .descending height expected =>
    s!"row height {height} is below the expected height {expected}; rows are not in ascending order"

/-- A walk over the heights of rows: the height that is due, which may be one beyond the range, the
height accepted last and the runs of heights passed over so far. -/
structure HeightWalk where
  range : BlockRange
  continuity : Continuity
  expected : Nat
  last : Option Nat
  missing : List BlockRange
deriving DecidableEq

namespace HeightWalk

/-- The walk before the first row. -/
def begin (range : BlockRange) (continuity : Continuity) : HeightWalk :=
  ⟨range, continuity, range.start, none, []⟩

/-- Takes the height of the next row. What was noted before a height turns out not to be accepted
stays noted. -/
def step (height : Nat) : ExceptT HeightError (StateM HeightWalk) Unit := do
  let w ← get
  if w.continuity = .none then return
  else if h : w.range.contains height = false then throw (.outside height w.range)
  else if w.continuity = .grouped ∧ w.last = some height then return
  else if height < w.expected then throw (.descending height w.expected)
  else
    if lt : w.expected < height then
      let skipped : BlockRange := ⟨w.expected, height - 1, by omega, by
        have := w.range.stop_lt
        simp [BlockRange.contains] at h
        omega⟩
      modify fun w => { w with missing := w.missing ++ [skipped] }
    modify fun w => { w with expected := height + 1, last := some height }

/-- The walk after the height of the next row, if the height is accepted. -/
def observe (w : HeightWalk) (height : Nat) : Except HeightError HeightWalk :=
  match (step height).run.run w with
  | (.ok (), next) => .ok next
  | (.error reason, _) => .error reason

/-- The walk after heights one after the other. It goes on after one that is not accepted. -/
def walk (w : HeightWalk) (heights : List Nat) : HeightWalk :=
  heights.foldl (fun w height => ((step height).run.run w).2) w

/-- The runs of heights of the range that no row had. -/
def finish (w : HeightWalk) : List BlockRange :=
  if w.continuity = .none then []
  else if h : w.expected ≤ w.range.stop then
    w.missing ++ [⟨w.expected, w.range.stop, h, w.range.stop_lt⟩]
  else w.missing

end HeightWalk

end ChainMigration
