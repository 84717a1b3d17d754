/-
What is collected from a tree, held against where it stands there. A path
tells which object to go into, level by level, and paths in the order of
words are places in depth first order. So the first occurrence of a number
is the one whose path no other comes before (`First`). Collecting from a
tree is adding what stands at its leaves one by one, in that order
(`flatten_eq_foldl`). What was there before stays, and every other number
gets its first occurrence (`lookup_flatten_iff`).
-/
import Mathlib.Data.List.Lex
import SmartCard.Tlv.Object

namespace SmartCard.Tlv

-- ================================================================= paths

/-- The object at the end of a path. -/
def follow? : Tlv → List Nat → Option Tlv
  | t, [] => some t
  | primitive _ _, _ :: _ => none
  | constructed _ children, i :: path =>
    match children[i]? with
    | some child => child.follow? path
    | none => none

/-- The octets at the end of a path, where it leads to a primitive object
with the number. -/
def occurrence? (number : UInt16) (t : Tlv) (path : List Nat) : Option Bytes :=
  match t.follow? path with
  | some object => object.content? number
  | none => none

/-- The same for paths that begin with a choice among objects in a row. -/
def occurrenceIn? (number : UInt16) (ts : List Tlv) : List Nat → Option Bytes
  | [] => none
  | i :: path =>
    match ts[i]? with
    | some t => t.occurrence? number path
    | none => none

/-- What paths lead to first, in the order of words, or that they lead to
nothing. -/
def FirstOf (place : List Nat → Option Bytes) : Option Bytes → Prop
  | some content => ∃ path, place path = some content
      ∧ ∀ earlier < path, place earlier = none
  | none => ∀ path, place path = none

/-- The first primitive object with the number has these octets. -/
def First (number : UInt16) (t : Tlv) (content : Bytes) : Prop :=
  FirstOf (t.occurrence? number) (some content)

/-- Only one outcome is first. -/
theorem FirstOf.unique {place : List Nat → Option Bytes} {x y : Option Bytes}
    (hx : FirstOf place x) (hy : FirstOf place y) : x = y := by
  cases x with
  | none =>
      cases y with
      | none => rfl
      | some content =>
          obtain ⟨path, hpath, -⟩ := hy
          cases (hx path).symm.trans hpath
  | some content =>
      obtain ⟨path, hpath, hbefore⟩ := hx
      cases y with
      | none => cases (hy path).symm.trans hpath
      | some other =>
          obtain ⟨path', hpath', hbefore'⟩ := hy
          rcases lt_trichotomy path path' with hlt | rfl | hlt
          · cases (hbefore' path hlt).symm.trans hpath
          · exact hpath.symm.trans hpath'
          · cases (hbefore path' hlt).symm.trans hpath'

-- ================================================================ leaves

mutual

/-- The numbers and octets of the primitive objects of a tree, in depth
first order. -/
def leaves : Tlv → List (UInt16 × Bytes)
  | primitive tag content => [(numberOf tag, content)]
  | constructed _ children => leavesOfAll children

/-- The same of trees in a row. -/
def leavesOfAll : List Tlv → List (UInt16 × Bytes)
  | [] => []
  | t :: ts => leaves t ++ leavesOfAll ts

end

/-- What occurs in an object that holds others occurs in one of them. -/
theorem occurrence?_constructed (number : UInt16) (tag : Bytes)
    (children : List Tlv) :
    (constructed tag children).occurrence? number
      = occurrenceIn? number children := by
  funext path
  cases path with
  | nil => rfl
  | cons i path =>
      simp only [occurrence?, occurrenceIn?, follow?]
      cases children[i]? <;> rfl

theorem lookup_single (number asked : UInt16) (content : Bytes) :
    [(number, content)].lookup asked
      = if number = asked then some content else none := by
  by_cases h : number = asked
  · subst h
    rw [List.lookup_cons_self, if_pos rfl]
  · rw [List.lookup_cons, beq_false_of_ne (Ne.symm h), if_neg h]
    rfl

/-- A primitive object has one place for octets, that of the empty path. -/
theorem firstOf_primitive (number : UInt16) (tag content : Bytes) :
    FirstOf ((primitive tag content).occurrence? number)
      ([(numberOf tag, content)].lookup number) := by
  rw [lookup_single]
  by_cases h : numberOf tag = number
  · rw [if_pos h]
    exact ⟨[], if_pos h, fun earlier hlt => absurd hlt (List.not_lt_nil earlier)⟩
  · rw [if_neg h]
    intro path
    cases path with
    | nil => exact if_neg h
    | cons i path => rfl

/-- The places in the first object of a row come before those in the
others. -/
theorem firstOf_cons {number : UInt16} {t : Tlv} {ts : List Tlv}
    {x y : Option Bytes} (hx : FirstOf (t.occurrence? number) x)
    (hy : FirstOf (occurrenceIn? number ts) y) :
    FirstOf (occurrenceIn? number (t :: ts)) (x.or y) := by
  cases x with
  | some content =>
      obtain ⟨path, hpath, hbefore⟩ := hx
      refine ⟨0 :: path, hpath, fun earlier hlt => ?_⟩
      -- before a path into the first object are only paths into it
      rcases earlier with _ | ⟨i, rest⟩
      · rfl
      · obtain hi | ⟨rfl, hrest⟩ := List.cons_lt_cons_iff.mp hlt
        · exact absurd hi (Nat.not_lt_zero i)
        · exact hbefore rest hrest
  | none =>
      cases y with
      | some content =>
          obtain ⟨path, hpath, hbefore⟩ := hy
          rcases path with _ | ⟨i, path⟩
          · cases hpath
          -- a path into the others has its first step one higher in this row
          refine ⟨(i + 1) :: path, hpath, fun earlier hlt => ?_⟩
          rcases earlier with _ | ⟨_ | j, rest⟩
          · rfl
          · exact hx rest
          · refine hbefore (j :: rest) (List.cons_lt_cons_iff.mpr ?_)
            simpa using List.cons_lt_cons_iff.mp hlt
      | none =>
          intro path
          rcases path with _ | ⟨_ | i, path⟩
          · rfl
          · exact hx path
          · exact hy (i :: path)

mutual

/-- Among the leaves a number is found where it occurs first. -/
theorem firstOf_leaves (number : UInt16) : ∀ t : Tlv,
    FirstOf (t.occurrence? number) (t.leaves.lookup number)
  | primitive tag content => firstOf_primitive number tag content
  | constructed tag children => by
      rw [occurrence?_constructed]
      exact firstOf_leavesOfAll number children

theorem firstOf_leavesOfAll (number : UInt16) : ∀ ts : List Tlv,
    FirstOf (occurrenceIn? number ts) ((leavesOfAll ts).lookup number)
  | [] => fun path => by cases path <;> rfl
  | t :: ts => by
      rw [leavesOfAll, List.lookup_append]
      exact firstOf_cons (firstOf_leaves number t)
        (firstOf_leavesOfAll number ts)

end

/-- A look-up among the leaves finds the first occurrence. -/
theorem lookup_leaves_iff {number : UInt16} {t : Tlv} {content : Bytes} :
    t.leaves.lookup number = some content ↔ First number t content := by
  refine ⟨fun h => ?_, fun h => (firstOf_leaves number t).unique h⟩
  have hfirst := firstOf_leaves number t
  rwa [h] at hfirst

-- ============================================================ collecting

mutual

/-- Collecting from a tree adds its leaves one by one. -/
theorem flatten_eq_foldl (found : Contents) : ∀ t : Tlv,
    flatten found t
      = t.leaves.foldl (fun found leaf => addNew found leaf.1 leaf.2) found
  | primitive _ _ => rfl
  | constructed _ children => flattenAll_eq_foldl found children

theorem flattenAll_eq_foldl (found : Contents) : ∀ ts : List Tlv,
    flattenAll found ts
      = (leavesOfAll ts).foldl
        (fun found leaf => addNew found leaf.1 leaf.2) found
  | [] => rfl
  | t :: ts => by
      rw [flattenAll, leavesOfAll, List.foldl_append, ← flatten_eq_foldl found t]
      exact flattenAll_eq_foldl (flatten found t) ts

end

theorem lookup_addNew (found : Contents) (number : UInt16) (content : Bytes)
    (asked : UInt16) :
    (addNew found number content).lookup asked
      = (found.lookup asked).or ([(number, content)].lookup asked) := by
  unfold addNew
  split
  · next hthere =>
      rw [lookup_single]
      by_cases h : number = asked
      · subst h
        obtain ⟨present, hpresent⟩ := Option.isSome_iff_exists.mp hthere
        rw [hpresent, Option.some_or]
      · rw [if_neg h, Option.or_none]
  · exact List.lookup_append

/-- What is there already is found before what is added. By induction over
what is added. -/
theorem lookup_foldl_addNew (leaves : List (UInt16 × Bytes)) (found : Contents)
    (asked : UInt16) :
    (leaves.foldl (fun found leaf => addNew found leaf.1 leaf.2) found).lookup
        asked
      = (found.lookup asked).or (leaves.lookup asked) := by
  induction leaves generalizing found with
  | nil => simp
  | cons leaf leaves ih =>
      rw [List.foldl_cons, ih, lookup_addNew, Option.or_assoc,
        ← List.lookup_append, List.singleton_append]

/-- After collecting from a tree, a number has the octets that it had
before, or if it had none those of its first occurrence. -/
theorem lookup_flatten_iff {found : Contents} {t : Tlv} {number : UInt16}
    {content : Bytes} :
    (flatten found t).lookup number = some content
      ↔ found.lookup number = some content
        ∨ found.lookup number = none ∧ First number t content := by
  rw [flatten_eq_foldl, lookup_foldl_addNew, Option.or_eq_some_iff,
    lookup_leaves_iff]

/-- A number is added where it was not found. -/
theorem nodup_addNew {found : Contents} (h : (found.map Prod.fst).Nodup)
    (number : UInt16) (content : Bytes) :
    ((addNew found number content).map Prod.fst).Nodup := by
  unfold addNew
  split
  · exact h
  · next hnew =>
      have hnone := Option.not_isSome_iff_eq_none.mp hnew
      have hfresh : number ∉ found.map Prod.fst := fun hmem => by
        obtain ⟨entry, hentry, rfl⟩ := List.mem_map.mp hmem
        have hdiffers := List.lookup_eq_none_iff.mp hnone entry hentry
        simp at hdiffers
      rw [List.map_append, List.nodup_append]
      refine ⟨h, by simp, ?_⟩
      rintro a ha b hb rfl
      obtain rfl : a = number := by simpa using hb
      exact hfresh ha

/-- Collecting from a tree adds no number twice. -/
theorem nodup_flatten {found : Contents} (h : (found.map Prod.fst).Nodup)
    (t : Tlv) : ((flatten found t).map Prod.fst).Nodup := by
  rw [flatten_eq_foldl]
  generalize t.leaves = leaves
  induction leaves generalizing found with
  | nil => exact h
  | cons leaf leaves ih => exact ih (nodup_addNew h leaf.1 leaf.2)

end SmartCard.Tlv
