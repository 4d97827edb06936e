import Mathlib.Data.List.Dedup

/-!
# Insertion-ordered dictionaries

A dictionary is the list of its entries in the order in which their keys came.
Collecting entries into it groups the values of each key, and keeps the order of
the first appearances.
-/

namespace OhanaAgent.Store

universe u v w

variable {κ : Type u} {β : Type v} {ι : Type w} [DecidableEq κ]

/-- A dictionary with its keys in insertion order. -/
abbrev Dictionary (κ : Type u) (β : Type v) : Type (max u v) := List (κ × β)

/-- The elements of a list in the order of their first appearance. -/
def firsts (list : List κ) : List κ :=
  list.eraseDups

namespace Dictionary

/-- `setdefault`, and a change of the value it returns. -/
def upsert (key : κ) (default : β) (change : β → β) : Dictionary κ β → Dictionary κ β
  | [] => [(key, change default)]
  | (other, value) :: rest =>
      if other = key then (other, change value) :: rest
      else (other, value) :: upsert key default change rest

/-- The value of a key. -/
def find (key : κ) (dictionary : Dictionary κ β) : Option β :=
  dictionary.lookup key

/-- Collect entries, each under its key. -/
def collect (default : β) (add : β → ι → β) (entries : List (κ × ι)) (start : Dictionary κ β) :
    Dictionary κ β :=
  entries.foldl (fun dictionary entry =>
    upsert entry.1 default (fun value => add value entry.2) dictionary) start

/-- What entries hold under a key, in their order. -/
def under (key : κ) (entries : List (κ × ι)) : List ι :=
  (entries.filter fun entry => entry.1 = key).map Prod.snd

variable {key other : κ} {default : β} {change : β → β} {add : β → ι → β}

theorem under_cons (entry : κ × ι) (entries : List (κ × ι)) :
    under key (entry :: entries) =
      if entry.1 = key then entry.2 :: under key entries else under key entries := by
  by_cases same : entry.1 = key
  · simp [under, same]
  · simp [under, same]

theorem under_eq_nil_iff {entries : List (κ × ι)} :
    under key entries = [] ↔ key ∉ entries.map Prod.fst := by
  simp only [under, List.map_eq_nil_iff, List.filter_eq_nil_iff, decide_eq_true_eq, List.mem_map,
    not_exists, not_and]

theorem under_filter {keep : κ → Bool} (kept : keep key = true) (entries : List (κ × ι)) :
    under key (entries.filter fun entry => keep entry.1) = under key entries := by
  rw [under, under, List.filter_filter]
  congr 1
  apply List.filter_congr
  intro entry _
  by_cases same : entry.1 = key
  · rw [same, kept, Bool.and_true]
  · rw [decide_eq_false same, Bool.false_and]

@[simp]
theorem find_nil : find key ([] : Dictionary κ β) = none := rfl

theorem find_cons (entry : κ × β) (dictionary : Dictionary κ β) :
    find key (entry :: dictionary) = if key = entry.1 then some entry.2 else find key dictionary := by
  rw [find, find, List.lookup_cons]
  by_cases same : key = entry.1
  · rw [if_pos same, same, BEq.rfl]
  · rw [if_neg same, beq_false_of_ne same]

theorem find_upsert (dictionary : Dictionary κ β) :
    find other (upsert key default change dictionary) =
      if other = key then some (change ((find key dictionary).getD default))
      else find other dictionary := by
  induction dictionary with
  | nil => rw [upsert, find_cons, find_nil, find_nil, Option.getD_none]
  | cons entry rest inductionHypothesis =>
      rcases entry with ⟨name, value⟩
      rw [upsert]
      by_cases named : name = key
      · subst named
        rw [if_pos rfl, find_cons, find_cons, find_cons, if_pos rfl, Option.getD_some]
        split <;> rfl
      · rw [if_neg named, find_cons, inductionHypothesis, find_cons, find_cons,
          if_neg (Ne.symm named)]
        by_cases here : other = name
        · rw [if_pos here, if_neg (here ▸ named), if_pos here]
        · rw [if_neg here, if_neg here]

theorem keys_upsert (dictionary : Dictionary κ β) :
    (upsert key default change dictionary).map Prod.fst =
      if key ∈ dictionary.map Prod.fst then dictionary.map Prod.fst
      else dictionary.map Prod.fst ++ [key] := by
  induction dictionary with
  | nil => simp [upsert]
  | cons entry rest inductionHypothesis =>
      rw [upsert]
      by_cases named : entry.1 = key
      · rw [if_pos named, List.map_cons, List.map_cons, if_pos (by simp [named])]
      · have elsewhere : key ∈ (entry :: rest).map Prod.fst ↔ key ∈ rest.map Prod.fst := by
          rw [List.map_cons, List.mem_cons, or_iff_right (Ne.symm named)]
        rw [if_neg named, List.map_cons, inductionHypothesis]
        by_cases known : key ∈ rest.map Prod.fst
        · rw [if_pos known, if_pos (elsewhere.mpr known)]
          rfl
        · rw [if_neg known, if_neg (elsewhere.not.mpr known)]
          rfl

theorem collect_cons (entry : κ × ι) (entries : List (κ × ι)) (start : Dictionary κ β) :
    collect default add (entry :: entries) start =
      collect default add entries
        (upsert entry.1 default (fun value => add value entry.2) start) := rfl

theorem collect_append (first second : List (κ × ι)) (start : Dictionary κ β) :
    collect default add (first ++ second) start =
      collect default add second (collect default add first start) :=
  List.foldl_append

/-- The value of a key collects what the entries hold under it. -/
theorem find_collect (entries : List (κ × ι)) (start : Dictionary κ β) :
    find key (collect default add entries start) =
      if key ∈ entries.map Prod.fst then
        some ((under key entries).foldl add ((find key start).getD default))
      else find key start := by
  induction entries generalizing start with
  | nil => rfl
  | cons entry rest inductionHypothesis =>
      rw [collect_cons, inductionHypothesis, find_upsert, under_cons]
      by_cases same : key = entry.1
      · subst same
        have present : entry.1 ∈ (entry :: rest).map Prod.fst := List.mem_cons_self
        rw [if_pos rfl, if_pos present, if_pos rfl, List.foldl_cons, Option.getD_some]
        split
        · rfl
        · rename_i absent
          rw [under_eq_nil_iff.mpr absent, List.foldl_nil]
      · have elsewhere : key ∈ (entry :: rest).map Prod.fst ↔ key ∈ rest.map Prod.fst := by
          rw [List.map_cons, List.mem_cons, or_iff_right same]
        rw [if_neg same, if_neg (Ne.symm same)]
        simp only [elsewhere]

/-- The keys come in the order of their first appearance. -/
theorem keys_collect (entries : List (κ × ι)) (start : Dictionary κ β) :
    (collect default add entries start).map Prod.fst = start.map Prod.fst ++
      firsts ((entries.map Prod.fst).filter fun key => key ∉ start.map Prod.fst) := by
  induction entries generalizing start with
  | nil => simp [collect, firsts]
  | cons entry rest inductionHypothesis =>
      rw [collect_cons, inductionHypothesis, keys_upsert, List.map_cons]
      by_cases known : entry.1 ∈ start.map Prod.fst
      · rw [if_pos known, List.filter_cons_of_neg (by simpa using known)]
      · rw [if_neg known, List.filter_cons_of_pos (by simpa using known), firsts, firsts,
          List.eraseDups_cons, List.append_assoc, List.filter_filter, List.singleton_append]
        congr 3
        apply List.filter_congr
        intro name _
        rw [Bool.eq_iff_iff]
        simp [or_comm]

/-- The value of a key, or the default. -/
theorem getD_find_collect (entries : List (κ × ι)) :
    (find key (collect default add entries [])).getD default =
      (under key entries).foldl add default := by
  rw [find_collect]
  split
  · rfl
  · rename_i absent
    rw [under_eq_nil_iff.mpr absent]
    rfl

end Dictionary

/-! ## First appearances -/

theorem mem_firsts_iff {list : List κ} {element : κ} : element ∈ firsts list ↔ element ∈ list := by
  induction length : list.length using Nat.strongRecOn generalizing list with
  | ind size inductionHypothesis =>
      cases list with
      | nil => simp [firsts]
      | cons first rest =>
          have shorter : (rest.filter fun other => !other == first).length < size := by
            rw [← length, List.length_cons]
            exact Nat.lt_succ_of_le (List.length_filter_le _ rest)
          rw [firsts, List.eraseDups_cons, List.mem_cons, ← firsts, inductionHypothesis _ shorter rfl,
            List.mem_filter, List.mem_cons]
          by_cases same : element = first <;> simp [same]

theorem nodup_firsts (list : List κ) : (firsts list).Nodup := by
  induction length : list.length using Nat.strongRecOn generalizing list with
  | ind size inductionHypothesis =>
      cases list with
      | nil => simp [firsts]
      | cons first rest =>
          have shorter : (rest.filter fun other => !other == first).length < size := by
            rw [← length, List.length_cons]
            exact Nat.lt_succ_of_le (List.length_filter_le _ rest)
          rw [firsts, List.eraseDups_cons, List.nodup_cons, ← firsts, mem_firsts_iff, List.mem_filter]
          constructor
          · simp
          · exact inductionHypothesis _ shorter _ rfl

namespace Dictionary

variable {key : κ} {default : β} {add : β → ι → β}

/-- A dictionary without repeated keys is read by its keys. -/
theorem eq_map_find {dictionary : Dictionary κ β} (distinct : (dictionary.map Prod.fst).Nodup) :
    dictionary = (dictionary.map Prod.fst).map fun key =>
      (key, (find key dictionary).getD default) := by
  induction dictionary with
  | nil => rfl
  | cons entry rest inductionHypothesis =>
      rcases entry with ⟨name, value⟩
      rw [List.map_cons, List.nodup_cons] at distinct
      rw [List.map_cons, List.map_cons, find_cons, if_pos rfl]
      congr 1
      nth_rewrite 1 [inductionHypothesis distinct.2]
      apply List.map_congr_left
      intro other inside
      have different : other ≠ name := fun same => distinct.1 (same ▸ inside)
      rw [find_cons, if_neg different]

/-- Collected entries: each key in the order of the first appearances, with what
the entries hold under it. -/
theorem collect_eq (entries : List (κ × ι)) : collect default add entries [] =
    (firsts (entries.map Prod.fst)).map fun key =>
      (key, (under key entries).foldl add default) := by
  have keys : (collect default add entries []).map Prod.fst =
      firsts (entries.map Prod.fst) := by
    rw [keys_collect]
    simp
  have distinct : ((collect default add entries []).map Prod.fst).Nodup := by
    rw [keys]
    exact nodup_firsts _
  rw [@eq_map_find _ _ _ default _ distinct, keys]
  simp only [getD_find_collect]

end Dictionary

end OhanaAgent.Store
