import ChainMigration.Engine.Work

/-! # Copying pages

The pages of a foreign table are copied segment by segment, in order. A segment that fails is told
and left behind; the others are still copied. Before each segment the copier looks whether it has to
stop; a stop that comes after that does not keep it from copying the segment. `PageCopy.step` is one
step of the copier or of whoever drains its channels. -/

namespace ChainMigration

/-- What a copier is doing. -/
inductive Copier
  | idle
  /-- Has seen no stop and is about to copy a segment. -/
  | poised
  /-- Waits for a segment to be copied. -/
  | copying (pages : BlockRange)
  /-- Has told of a failed segment, but not yet why it failed. -/
  | failing (reason : MigrationError)
  | exited
deriving DecidableEq

/-- A copier with the segments that wait and its channels. -/
structure PageCopy where
  table : String
  /-- The segments that are still to be copied. -/
  queue : List BlockRange
  copier : Copier := .idle
  failed : List BlockRange := []
  errors : List MigrationError := []
  /-- The copier holds the sending ends of its channels. -/
  sending : Bool := true
  /-- Everyone who waits for the end has been told of it. -/
  done : Bool := false
deriving DecidableEq

/-- A step of a copier. -/
inductive CopyMove
  /-- The copier looks whether it has to stop, and sees that it does not. -/
  | look
  /-- The copier begins with a segment. -/
  | start (pages : BlockRange)
  /-- The copy of a segment is answered. -/
  | copied (pages : BlockRange) (answer : Except MigrationError Nat)
  /-- The copier tells why a segment failed. -/
  | tell (reason : MigrationError)
  | exit
  /-- The copier lets go of the sending ends. -/
  | letGo
  | finish
  | receiveFailed (pages : BlockRange)
  | receiveFailure (reason : MigrationError)

namespace PageCopy

/-- The copier has exited. -/
def exited (c : PageCopy) : Bool := c.copier = .exited

/-- The channels are empty. -/
def drained (c : PageCopy) : Bool := c.failed.isEmpty && c.errors.isEmpty

/-- One step of a copier whose owner may be closing; none if the copier cannot make it. -/
def step (closing : Bool) (c : PageCopy) : CopyMove → Option PageCopy
  | .look =>
    if c.copier = .idle ∧ c.queue ≠ [] ∧ !closing then some { c with copier := .poised } else none
  | .start pages =>
    match c.copier, c.queue with
    | .poised, first :: rest =>
      if first = pages then some { c with queue := rest, copier := .copying pages } else none
    | _, _ => none
  | .copied pages answer =>
    if c.copier = .copying pages then
      match answer with
      | .ok _ => some { c with copier := .idle }
      | .error reason => some { c with copier := .failing reason, failed := c.failed ++ [pages] }
    else none
  | .tell reason =>
    if c.copier = .failing reason then
      some { c with copier := .idle, errors := c.errors ++ [reason] }
    else none
  | .exit =>
    if c.copier = .idle ∧ (closing ∨ c.queue = []) then some { c with copier := .exited } else none
  | .letGo => if c.exited && c.sending then some { c with sending := false } else none
  | .finish => if c.exited && !c.sending && !c.done then some { c with done := true } else none
  | .receiveFailed pages =>
    match c.failed with
    | first :: rest => if first = pages then some { c with failed := rest } else none
    | [] => none
  | .receiveFailure reason =>
    match c.errors with
    | first :: rest => if first = reason then some { c with errors := rest } else none
    | [] => none

end PageCopy

end ChainMigration
