import Mathlib.Data.List.Basic

/-!
# The latest entry of a key

A journal grows at its end.  The latest entry of a key is the one that an update
in place would leave behind.
-/

namespace OhanaAgent.Store

universe u v

variable {β : Type u} {κ : Type v} [DecidableEq κ] {key : β → κ} {wanted : κ} {journal : List β}
  {entry : β}

/-- The last entry with a key. -/
def latest (key : β → κ) (wanted : κ) (journal : List β) : Option β :=
  journal.reverse.find? fun entry => key entry = wanted

@[simp]
theorem latest_nil : latest key wanted [] = none := rfl

theorem latest_concat : latest key wanted (journal ++ [entry]) =
    if key entry = wanted then some entry else latest key wanted journal := by
  unfold latest
  rw [List.reverse_append, List.reverse_singleton, List.singleton_append]
  by_cases same : key entry = wanted
  · rw [if_pos same, List.find?_cons_of_pos (by simp [same])]
  · rw [if_neg same, List.find?_cons_of_neg (by simp [same])]

theorem key_of_latest (found : latest key wanted journal = some entry) : key entry = wanted := by
  simpa using List.find?_some found

/-- The latest entry of the key of an entry is that entry or one after it. -/
theorem latest_of_cut {earlier later : List β} :
    ∃ last, latest key (key entry) (earlier ++ entry :: later) = some last ∧
      (last = entry ∨ last ∈ later) := by
  unfold latest
  rw [List.reverse_append, List.reverse_cons, List.append_assoc, List.find?_append]
  cases found : later.reverse.find? fun other => key other = key entry with
  | some last => exact ⟨last, rfl, Or.inr (List.mem_reverse.mp (List.mem_of_find?_eq_some found))⟩
  | none => exact ⟨entry, by simp, Or.inl rfl⟩

end OhanaAgent.Store
