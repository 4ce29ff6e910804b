/-! # Ranges of block heights

An inclusive range of heights. Heights are numbers of 64 bits and a range is never empty: both are
kept in the type. `segment` cuts an interval into consecutive ranges of one size. -/

namespace ChainMigration

/-- The inclusive range of heights from `start` to `stop`. -/
structure BlockRange where
  start : Nat
  stop : Nat
  start_le_stop : start ≤ stop
  stop_lt : stop < 0x1_0000_0000_0000_0000
deriving DecidableEq

/-- Why two heights or a size make no ranges. -/
inductive RangeError
  /-- Segments must hold at least one height. -/
  | zeroSize
  /-- The start lies above the stop. -/
  | inverted (start stop : UInt64)
deriving DecidableEq

/-- The wording of a range error. -/
def RangeError.message : RangeError → String
  | .zeroSize => "segment size must be at least 1"
  | .inverted start stop =>
    s!"invalid range [{start.toNat}, {stop.toNat}]: start is greater than stop"

namespace BlockRange

/-- The range between two heights, which must be in order. -/
def between (start stop : UInt64) : Except RangeError BlockRange :=
  if h : start ≤ stop then .ok ⟨start.toNat, stop.toNat, h, stop.toNat_lt⟩
  else .error (.inverted start stop)

/-- How many heights the range covers, at most the largest number of 64 bits. -/
def len (r : BlockRange) : Nat := min (r.stop - r.start + 1) 0xFFFF_FFFF_FFFF_FFFF

/-- The heights of the range, each once, ascending. -/
def heights (r : BlockRange) : List Nat := List.range' r.start (r.stop - r.start + 1)

/-- The height lies in the range. -/
def contains (r : BlockRange) (height : Nat) : Bool := r.start ≤ height && height ≤ r.stop

/-- Ranges are ordered by their start, then by their stop. -/
def compare (r s : BlockRange) : Ordering :=
  (Ord.compare r.start s.start).then (Ord.compare r.stop s.stop)

/-- The range as messages show it. -/
def text (r : BlockRange) : String := s!"[{r.start}, {r.stop}]"

instance : ToString BlockRange := ⟨text⟩

end BlockRange

/-- The sum of two words, or the largest word if the sum is larger. -/
def saturatingAdd (a b : UInt64) : UInt64 :=
  if a.toNat + b.toNat < UInt64.size then a + b else 0xFFFF_FFFF_FFFF_FFFF

theorem toNat_saturatingAdd (a b : UInt64) :
    (saturatingAdd a b).toNat = min (a.toNat + b.toNat) 0xFFFF_FFFF_FFFF_FFFF := by
  have ha := a.toNat_lt
  have hb := b.toNat_lt
  unfold saturatingAdd
  split
  · next h =>
    rw [UInt64.toNat_add, Nat.mod_eq_of_lt h]
    simp only [UInt64.size] at h
    omega
  · next h =>
    simp only [UInt64.size] at h
    rw [show (0xFFFF_FFFF_FFFF_FFFF : UInt64).toNat = 0xFFFF_FFFF_FFFF_FFFF from rfl]
    omega

/-- The last height of a range of `size` heights that begins at a cursor, at most `stop`. -/
def lastFrom (size cursor stop : UInt64) : UInt64 := min (saturatingAdd cursor (size - 1)) stop

theorem toNat_lastFrom (size cursor stop : UInt64) :
    (lastFrom size cursor stop).toNat = min (cursor.toNat + (size - 1).toNat) stop.toNat := by
  have hstop := stop.toNat_lt
  have hsum := toNat_saturatingAdd cursor (size - 1)
  rw [show lastFrom size cursor stop = if saturatingAdd cursor (size - 1) ≤ stop then
    saturatingAdd cursor (size - 1) else stop from rfl]
  split
  · next hle =>
    rw [UInt64.le_iff_toNat_le] at hle
    omega
  · next hle =>
    rw [UInt64.le_iff_toNat_le] at hle
    omega

theorem toNat_add_one_of_ne {size cursor stop : UInt64} (h : lastFrom size cursor stop ≠ stop) :
    (lastFrom size cursor stop + 1).toNat = (lastFrom size cursor stop).toNat + 1 ∧
      (lastFrom size cursor stop).toNat < stop.toNat := by
  have hlast := toNat_lastFrom size cursor stop
  have hstop := stop.toNat_lt
  have hne : (lastFrom size cursor stop).toNat ≠ stop.toNat := fun he => h (UInt64.toNat_inj.mp he)
  refine ⟨?_, by omega⟩
  rw [UInt64.toNat_add, Nat.mod_eq_of_lt]
  · rfl
  · rw [show (1 : UInt64).toNat = 1 from rfl]
    omega

/-- Consecutive ranges of `size` heights from a cursor on, the last one ending at `stop`. A range
that ends below `stop` has a word behind it, where the next one begins. -/
def segmentFrom (size cursor stop : UInt64) (cursor_le_stop : cursor ≤ stop) : List BlockRange :=
  have cursor_le_last : cursor.toNat ≤ (lastFrom size cursor stop).toNat := by
    rw [toNat_lastFrom]
    exact Nat.le_min.mpr ⟨Nat.le_add_right _ _, cursor_le_stop⟩
  ⟨cursor.toNat, (lastFrom size cursor stop).toNat, cursor_le_last, UInt64.toNat_lt _⟩ ::
    if h : lastFrom size cursor stop = stop then []
    else segmentFrom size (lastFrom size cursor stop + 1) stop (by
      have := toNat_add_one_of_ne h
      rw [UInt64.le_iff_toNat_le]
      omega)
termination_by stop.toNat - cursor.toNat
decreasing_by
  have := toNat_add_one_of_ne h
  omega

/-- Cuts the heights from `start` to `stop` into ranges of `size` heights, the last one possibly
shorter. -/
def segment (size start stop : UInt64) : Except RangeError (List BlockRange) :=
  if size = 0 then .error .zeroSize
  else if h : start ≤ stop then .ok (segmentFrom size start stop h)
  else .error (.inverted start stop)

end ChainMigration
