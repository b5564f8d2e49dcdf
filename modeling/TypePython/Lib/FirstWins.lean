import Std.Data.ExtTreeMap

/-!
# Tables in which the first entry stays

Entering a list of items into a map, each under its key unless the key is taken.
-/

namespace TypePython.Lib

open Std

theorem values_eq_map_toList {κ β : Type} [Ord κ] [TransOrd κ] (table : ExtTreeMap κ β) :
    table.values = table.toList.map Prod.snd := by
  rcases table with ⟨⟨quotient⟩⟩
  induction quotient using Quotient.ind with
  | _ tree =>
    rcases tree with ⟨inner, hbalanced⟩
    show DTreeMap.Internal.Impl.values inner
      = (DTreeMap.Internal.Impl.Const.toList inner).map Prod.snd
    rw [DTreeMap.Internal.Impl.values_eq_map_snd,
      DTreeMap.Internal.Impl.Const.toList_eq_toListModel_map, List.map_map]
    rfl

section FirstWins

variable {κ α β : Type} [Ord κ] [TransOrd κ] [LawfulEqOrd κ]

/-- An item is found under its key if it is the first with it. -/
theorem getElem?_foldl_insertIfNew [DecidableEq κ] (key : α → κ) (value : α → β) (items : List α)
    (table : ExtTreeMap κ β) (k : κ) :
    (items.foldl (fun table item => table.insertIfNew (key item) (value item)) table)[k]?
      = table[k]?.or ((items.find? fun item => key item = k).map value) := by
  induction items generalizing table with
  | nil => simp
  | cons item rest ih =>
    rw [List.foldl_cons, ih, ExtTreeMap.getElem?_insertIfNew, List.find?_cons]
    by_cases hkey : key item = k
    · subst hkey
      rcases hfound : table[key item]? with _ | found
      · have hfree : key item ∉ table := by
          simp [ExtTreeMap.mem_iff_isSome_getElem?, hfound]
        simp [hfree]
      · have htaken : key item ∈ table := by
          simp [ExtTreeMap.mem_iff_isSome_getElem?, hfound]
        simp [htaken]
    · have hne : compare (key item) k ≠ .eq := fun h => hkey (LawfulEqOrd.eq_of_compare h)
      simp [hne, hkey]

section Values

variable {key : β → κ} {table : ExtTreeMap κ β}

theorem getElem?_of_mem_values (hkeyed : ∀ k value, table[k]? = some value → key value = k)
    {value : β} (hvalue : value ∈ table.toList.map Prod.snd) :
    table[key value]? = some value := by
  obtain ⟨⟨k', value'⟩, hentry, rfl⟩ := List.mem_map.1 hvalue
  have hfound := ExtTreeMap.mem_toList_iff_getElem?_eq_some.1 hentry
  rw [hkeyed k' value' hfound]
  exact hfound

theorem mem_values {k : κ} {value : β} (hvalue : table[k]? = some value) :
    value ∈ table.toList.map Prod.snd :=
  List.mem_map.2 ⟨(k, value), ExtTreeMap.mem_toList_iff_getElem?_eq_some.2 hvalue, rfl⟩

/-- The values of a map, searched by a key that each value carries. -/
theorem find?_toList_values [DecidableEq κ]
    (hkeyed : ∀ k value, table[k]? = some value → key value = k) (k : κ) :
    (table.toList.map Prod.snd).find? (fun value => key value = k) = table[k]? := by
  rcases hfind : (table.toList.map Prod.snd).find? fun value => key value = k with _ | value
  · symm
    rw [Option.eq_none_iff_forall_ne_some]
    intro value hvalue
    have hnot := List.find?_eq_none.1 hfind value (mem_values hvalue)
    simp [hkeyed k value hvalue] at hnot
  · have hkey : key value = k := by simpa using List.find?_some hfind
    rw [← hkey]
    exact (getElem?_of_mem_values hkeyed (List.mem_of_find?_eq_some hfind)).symm

end Values

end FirstWins

end TypePython.Lib
