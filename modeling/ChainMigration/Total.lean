/-! # Totals

The total of a count over a list. Main statement: `total_set`, changing one element of a list
changes the total by as much as its count. -/

namespace ChainMigration

variable {α : Type}

/-- The total of a count over a list. -/
def total (count : α → Nat) : List α → Nat
  | [] => 0
  | a :: l => count a + total count l

@[simp]
theorem total_nil (count : α → Nat) : total count [] = 0 := rfl

@[simp]
theorem total_cons (count : α → Nat) (a : α) (l : List α) :
    total count (a :: l) = count a + total count l := rfl

theorem total_replicate (count : α → Nat) (n : Nat) (a : α) :
    total count (List.replicate n a) = n * count a := by
  induction n with
  | zero => exact (Nat.zero_mul _).symm
  | succ n ih =>
    rw [List.replicate_succ, total_cons, ih, Nat.succ_mul]
    exact Nat.add_comm _ _

theorem total_set (count : α → Nat) (b : α) :
    ∀ (l : List α) (i : Nat) (a : α), l[i]? = some a →
      total count (l.set i b) + count a = total count l + count b
  | [], _, _, h => by simp at h
  | x :: l, 0, a, h => by
    rw [List.getElem?_cons_zero, Option.some.injEq] at h
    subst h
    rw [List.set_cons_zero, total_cons, total_cons]
    omega
  | x :: l, i + 1, a, h => by
    rw [List.getElem?_cons_succ] at h
    have ih := total_set count b l i a h
    rw [List.set_cons_succ, total_cons, total_cons]
    omega

end ChainMigration
