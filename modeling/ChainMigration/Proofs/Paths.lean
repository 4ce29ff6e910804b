import ChainMigration.Files.Tree
import ChainMigration.Proofs.Except
import Mathlib.Data.String.Basic

/-! # Paths and the places they lead to

A path is split at its slashes, and empty components do not count (`components_eq`). So a name that
is joined to a directory is one component more behind those of the directory (`components_join`).

Where a path leads to can be told from its components alone, whatever the tree holds: following them
fails, or it ends in this place (`eq_follow_of_walk`). -/

namespace ChainMigration

/-! ### Splitting at slashes -/

theorem extract_between (l m r : List Char) :
    String.Pos.Raw.extract (String.ofList (l ++ m ++ r)) ⟨String.utf8Len l⟩
      ⟨String.utf8Len (l ++ m)⟩ = String.ofList m := by
  rw [String.utf8Len_append]
  exact String.extract_of_valid l m r

/-- The scan of a text for slashes that has read the characters `m` since the last one. -/
theorem splitOnAux_slash (l m r : List Char) (acc : List String) :
    String.splitOnAux (String.ofList (l ++ m ++ r)) "/" ⟨String.utf8Len l⟩
        ⟨String.utf8Len (l ++ m)⟩ 0 acc =
      acc.reverse ++ (List.splitOnPPrepend (· == '/') r m.reverse).map String.ofList := by
  have hextract := extract_between l m r
  induction r generalizing l m acc with
  | nil =>
    have hend := (String.atEnd_of_valid (l ++ m) []).mpr rfl
    rw [String.splitOnAux, if_pos hend, hextract, List.splitOnPPrepend_nil, List.reverse_reverse,
      List.map_singleton]
    exact List.reverse_cons
  | cons c r ih =>
    have hend : ¬ String.Pos.Raw.atEnd (String.ofList (l ++ m ++ c :: r))
        ⟨String.utf8Len (l ++ m)⟩ = true := by
      rw [String.atEnd_of_valid]
      exact List.cons_ne_nil c r
    have hget :
        String.Pos.Raw.get (String.ofList (l ++ m ++ c :: r)) ⟨String.utf8Len (l ++ m)⟩ = c :=
      String.get_of_valid (l ++ m) (c :: r)
    have hlen : String.utf8Len (l ++ m ++ [c]) = String.utf8Len (l ++ m) + c.utf8Size := by
      rw [String.utf8Len_append (l ++ m), String.utf8Len_cons, String.utf8Len_nil, Nat.zero_add]
    have hnext : String.Pos.Raw.next (String.ofList (l ++ m ++ c :: r))
        ⟨String.utf8Len (l ++ m)⟩ = ⟨String.utf8Len (l ++ m ++ [c])⟩ := by
      rw [String.next_of_valid, hlen]
    rw [String.splitOnAux, if_neg hend, hget]
    by_cases hc : c = '/'
    · -- A slash ends the component.
      subst hc
      have hbefore : String.Pos.Raw.unoffsetBy ⟨String.utf8Len (l ++ m ++ ['/'])⟩
          (String.Pos.Raw.next "/" 0) = ⟨String.utf8Len (l ++ m)⟩ := by
        rw [hlen]
        rfl
      have hrest := ih (l ++ m ++ ['/']) [] (String.ofList m :: acc) (extract_between _ _ _)
      rw [if_pos (by decide), hnext, if_pos (by decide), hbefore, hextract,
        List.splitOnPPrepend_cons_pos (by decide), List.reverse_reverse, List.map_cons]
      simp only [List.append_nil, List.append_assoc, List.singleton_append, List.reverse_nil,
        List.reverse_cons, List.splitOnPPrepend_nil_right] at hrest ⊢
      exact hrest
    · -- Any other character belongs to it.
      have hget' : ¬ (c == String.Pos.Raw.get "/" 0) = true := by
        rw [beq_iff_eq]
        exact hc
      have hrest := ih l (m ++ [c]) acc (extract_between _ _ _)
      rw [if_neg hget', String.Pos.Raw.unoffsetBy_zero, hnext,
        List.splitOnPPrepend_cons_neg (p := (· == '/')) (beq_eq_false_iff_ne.mpr hc)]
      simp only [List.append_assoc, List.singleton_append, List.reverse_append,
        List.reverse_singleton] at hrest ⊢
      exact hrest

theorem splitOn_slash (text : String) :
    text.splitOn "/" = (text.toList.splitOn '/').map String.ofList := by
  have h := splitOnAux_slash [] [] text.toList []
  rw [List.append_nil, List.nil_append, String.ofList_toList] at h
  rw [String.splitOn, if_neg (by decide), List.splitOn_eq_splitOnP]
  exact h

namespace FileTree

/-! ### Components -/

theorem components_eq (path : String) : components path =
    ((path.toList.splitOn '/').filter (· ≠ [])).map String.ofList := by
  rw [components, splitOn_slash, List.filter_map]
  congr 1
  refine List.filter_congr fun name _ => ?_
  rw [Function.comp_apply, decide_eq_decide, ne_eq, ne_eq, String.ofList_eq_empty_iff]

theorem components_empty : components "" = [] := by
  rw [components_eq]
  rfl

theorem components_of_not_mem {name : String} (hne : name ≠ "") (h : '/' ∉ name.toList) :
    components name = [name] := by
  have hlist : name.toList ≠ [] := mt String.toList_eq_nil_iff.mp hne
  rw [components_eq, List.splitOn_eq_singleton h, List.filter_cons_of_pos, List.filter_nil,
    List.map_singleton, String.ofList_toList]
  exact decide_eq_true hlist

theorem components_append_slash (directory path : String) :
    components (directory ++ "/" ++ path) = components directory ++ components path := by
  rw [components_eq, components_eq, components_eq, String.toList_append, String.toList_append,
    List.append_assoc, show "/".toList = ['/'] from rfl, List.singleton_append,
    List.splitOn_append_cons_self, List.filter_append, List.map_append]

theorem startsWith_slash_of_not_mem {name : String} (h : '/' ∉ name.toList) :
    name.startsWith "/" = false := by
  rw [Bool.eq_false_iff, ne_eq, String.startsWith_string_iff]
  intro hbegins
  exact h (hbegins.subset (List.mem_singleton_self '/'))

theorem startsWith_slash_append {path : String} (hne : path ≠ "") (rest : String) :
    (path ++ rest).startsWith "/" = path.startsWith "/" := by
  rw [Bool.eq_iff_iff, String.startsWith_string_iff, String.startsWith_string_iff,
    String.toList_append]
  obtain ⟨c, chars, hpath⟩ := List.exists_cons_of_ne_nil (mt String.toList_eq_nil_iff.mp hne)
  rw [hpath, List.cons_append, show "/".toList = ['/'] from rfl, List.cons_prefix_cons,
    List.cons_prefix_cons]
  exact and_congr_right fun _ => iff_of_true List.nil_prefix List.nil_prefix

/-- **A name joined to a directory** is one component more. -/
theorem components_join (directory : String) {name : String} (hne : name ≠ "")
    (h : '/' ∉ name.toList) :
    components (join directory name) = components directory ++ [name] := by
  rw [join, startsWith_slash_of_not_mem h, Bool.false_or]
  split
  · next hempty =>
    rw [of_decide_eq_true hempty, components_empty, components_of_not_mem hne h]
    rfl
  · split
    · next hend =>
      obtain ⟨front, hfront⟩ := String.Slice.endsWith_string_iff.mp hend
      rw [String.copy_toSlice] at hfront
      obtain rfl : directory = String.ofList front ++ "/" := by
        rw [← String.toList_inj, String.toList_append, String.toList_ofList]
        exact hfront.symm
      have hfrontOnly := components_append_slash (String.ofList front) ""
      rw [String.append_empty, components_empty, List.append_nil] at hfrontOnly
      rw [components_append_slash, hfrontOnly, components_of_not_mem hne h]
    · rw [components_append_slash, components_of_not_mem hne h]

theorem origin_join (t : FileTree) (directory : String) {name : String} (h : '/' ∉ name.toList) :
    t.origin (join directory name) = t.origin directory := by
  rw [join, startsWith_slash_of_not_mem h, Bool.false_or]
  split
  · next hempty =>
    rw [of_decide_eq_true hempty, origin, startsWith_slash_of_not_mem h]
    rfl
  · next hne =>
    have hne : directory ≠ "" := fun h => hne (decide_eq_true h)
    split
    · rw [origin, startsWith_slash_append hne]
      rfl
    · rw [origin, String.append_assoc, startsWith_slash_append hne]
      rfl

/-! ### Places -/

/-- The place that components lead to if everything on the way is a directory. -/
def follow (place : Location) : List String → Location
  | [] => place
  | name :: names =>
    if name = "." then follow place names
    else if name = ".." then follow place.dropLast names
    else follow (place ++ [name]) names

/-- The place that a path leads to. -/
def placeOf (t : FileTree) (path : String) : Location :=
  follow (t.origin path) (components path)

/-- **Following components ends where they lead to**, if it does not fail. -/
theorem eq_follow_of_walk {t : FileTree} {names : List String} :
    ∀ {place last : Location}, t.walk place names = .ok last → last = follow place names := by
  induction names with
  | nil =>
    intro place last h
    cases h
    rfl
  | cons name names ih =>
    intro place last h
    rw [walk] at h
    rw [follow]
    split at h
    · next hdot =>
      rw [if_pos hdot]
      exact ih h
    · next hdot =>
      rw [if_neg hdot]
      split at h
      · next hup =>
        rw [if_pos hup]
        exact ih h
      · next hup =>
        rw [if_neg hup]
        split at h
        · cases h
        · cases h
        · cases h
        · exact ih h

/-- A file whose path is a name in a directory lies in the place of the directory. -/
theorem eq_of_target_join {t : FileTree} {directory name : String} {place : Location}
    (hne : name ≠ "") (h : '/' ∉ name.toList)
    (htarget : t.target (t.origin (join directory name)) (components (join directory name)) =
      .ok (some place)) : place = t.placeOf directory ++ [name] := by
  rw [origin_join t directory h, components_join directory hne h, target,
    List.getLast?_concat, List.dropLast_concat] at htarget
  obtain ⟨parent, hwalk, hplace⟩ := bind_eq_ok.mp htarget
  rw [eq_follow_of_walk hwalk] at hplace
  split at hplace
  · cases hplace
  · cases hplace
    rfl

end FileTree

end ChainMigration
