import Mathlib.Data.List.Nodup

/-!
# Keyed tables

A table is a list of rows with distinct primary keys.  The key is a function of
the row, so an update has to keep it; the constructors below ask for that once
and every reachable table has at most one row for a key.
-/

namespace OhanaAgent.Store

universe u v

/-- Rows in insertion order, with distinct keys. -/
structure Table (α : Type u) {κ : Type v} (key : α → κ) where
  rows : List α
  distinct : (rows.map key).Nodup

namespace Table

variable {α : Type u} {κ : Type v} {key : α → κ}

@[ext]
theorem ext {first second : Table α key} (equal : first.rows = second.rows) : first = second := by
  cases first
  cases second
  cases equal
  rfl

instance : EmptyCollection (Table α key) :=
  ⟨⟨[], List.nodup_nil⟩⟩

instance : Membership α (Table α key) :=
  ⟨fun table row => row ∈ table.rows⟩

theorem mem_def {table : Table α key} {row : α} : row ∈ table ↔ row ∈ table.rows := Iff.rfl

@[simp]
theorem rows_empty : (∅ : Table α key).rows = [] := rfl

@[simp]
theorem not_mem_empty (row : α) : row ∉ (∅ : Table α key) := List.not_mem_nil

theorem key_injective {table : Table α key} {first second : α} (firstMem : first ∈ table)
    (secondMem : second ∈ table) (same : key first = key second) : first = second :=
  List.inj_on_of_nodup_map table.distinct firstMem secondMem same

/-- Rewrite every row without touching its key. -/
def mapRows (table : Table α key) (f : α → α) (keeps : ∀ row, key (f row) = key row) :
    Table α key where
  rows := table.rows.map f
  distinct := by
    have same : (table.rows.map f).map key = table.rows.map key := by
      simp [Function.comp_def, keeps]
    rw [same]
    exact table.distinct

@[simp]
theorem rows_mapRows (table : Table α key) (f : α → α) (keeps : ∀ row, key (f row) = key row) :
    (table.mapRows f keeps).rows = table.rows.map f := rfl

@[simp]
theorem mem_mapRows {table : Table α key} {f : α → α} {keeps : ∀ row, key (f row) = key row}
    {row : α} : row ∈ table.mapRows f keeps ↔ ∃ source ∈ table, f source = row :=
  List.mem_map

/-- Keep the rows that satisfy a condition. -/
def filter (table : Table α key) (keep : α → Bool) : Table α key where
  rows := table.rows.filter keep
  distinct := table.distinct.sublist (List.filter_sublist.map key)

@[simp]
theorem rows_filter (table : Table α key) (keep : α → Bool) :
    (table.filter keep).rows = table.rows.filter keep := rfl

@[simp]
theorem mem_filter {table : Table α key} {keep : α → Bool} {row : α} :
    row ∈ table.filter keep ↔ row ∈ table ∧ keep row = true :=
  List.mem_filter

variable [DecidableEq κ]

/-- The row of a key. -/
def find? (table : Table α key) (wanted : κ) : Option α :=
  table.rows.find? fun row => key row = wanted

theorem find?_eq_some_iff {table : Table α key} {wanted : κ} {row : α} :
    table.find? wanted = some row ↔ row ∈ table ∧ key row = wanted := by
  constructor
  · intro found
    exact ⟨List.mem_of_find?_eq_some found, by simpa using List.find?_some found⟩
  · rintro ⟨member, same⟩
    cases found : table.find? wanted with
    | none => exact absurd same (by simpa using List.find?_eq_none.mp found row member)
    | some other =>
        have otherMem := List.mem_of_find?_eq_some found
        have otherKey : key other = wanted := by simpa using List.find?_some found
        rw [table.key_injective otherMem member (otherKey.trans same.symm)]

theorem find?_eq_none_iff {table : Table α key} {wanted : κ} :
    table.find? wanted = none ↔ ∀ row ∈ table, key row ≠ wanted := by
  simp [find?, mem_def]

/-- The rows with a key are the row of that key. -/
theorem filter_key (table : Table α key) (wanted : κ) :
    table.rows.filter (fun row => key row = wanted) = (table.find? wanted).toList := by
  cases found : table.find? wanted with
  | none =>
      rw [Option.toList_none, List.filter_eq_nil_iff]
      intro row member
      simpa using find?_eq_none_iff.mp found row member
  | some row =>
      obtain ⟨member, same⟩ := find?_eq_some_iff.mp found
      have only : ∀ other ∈ table.rows.filter (fun row => key row = wanted), other = row := by
        intro other otherMem
        rw [List.mem_filter] at otherMem
        exact table.key_injective otherMem.1 member ((by simpa using otherMem.2 :
          key other = wanted).trans same.symm)
      have distinct := (List.Nodup.of_map key table.distinct).filter fun row => key row = wanted
      have kept : row ∈ table.rows.filter (fun row => key row = wanted) := by
        rw [List.mem_filter]
        exact ⟨member, by simpa using same⟩
      rw [Option.toList_some]
      cases split : table.rows.filter (fun row => key row = wanted) with
      | nil =>
          rw [split] at kept
          contradiction
      | cons head rest =>
          rw [split] at only distinct
          have first := only head List.mem_cons_self
          subst first
          cases rest with
          | nil => rfl
          | cons second rest =>
              have again := only second (by simp)
              simp [again] at distinct

/-- Rewrite the row of one key. -/
def modify (table : Table α key) (wanted : κ) (f : α → α)
    (keeps : ∀ row, key (f row) = key row) : Table α key :=
  table.mapRows (fun row => if key row = wanted then f row else row) fun row => by
    split
    · exact keeps row
    · rfl

@[simp]
theorem rows_modify (table : Table α key) (wanted : κ) (f : α → α)
    (keeps : ∀ row, key (f row) = key row) :
    (table.modify wanted f keeps).rows =
      table.rows.map fun row => if key row = wanted then f row else row := rfl

/-- A row of a rewritten table is the rewritten row or another row. -/
theorem mem_modify {table : Table α key} {wanted : κ} {f : α → α}
    {keeps : ∀ row, key (f row) = key row} {row : α} :
    row ∈ table.modify wanted f keeps ↔
      (∃ source ∈ table, key source = wanted ∧ f source = row) ∨
        (row ∈ table ∧ key row ≠ wanted) := by
  unfold modify
  rw [mem_mapRows]
  constructor
  · rintro ⟨source, member, equal⟩
    by_cases same : key source = wanted
    · exact Or.inl ⟨source, member, same, by simpa [same] using equal⟩
    · rw [if_neg same] at equal
      exact Or.inr ⟨equal ▸ member, equal ▸ same⟩
  · rintro (⟨source, member, same, equal⟩ | ⟨member, other⟩)
    · exact ⟨source, member, by simp [same, equal]⟩
    · exact ⟨row, member, by simp [other]⟩

theorem find?_modify_self {table : Table α key} {wanted : κ} {f : α → α}
    {keeps : ∀ row, key (f row) = key row} :
    (table.modify wanted f keeps).find? wanted = (table.find? wanted).map f := by
  cases found : table.find? wanted with
  | none =>
      rw [Option.map_none, find?_eq_none_iff]
      intro row member same
      rcases mem_modify.mp member with ⟨source, sourceMem, sourceKey, _⟩ | ⟨_, other⟩
      · exact find?_eq_none_iff.mp found source sourceMem sourceKey
      · exact other same
  | some row =>
      obtain ⟨member, same⟩ := find?_eq_some_iff.mp found
      rw [Option.map_some, find?_eq_some_iff]
      exact ⟨mem_modify.mpr (Or.inl ⟨row, member, same, rfl⟩), by rw [keeps, same]⟩

theorem find?_modify_of_ne {table : Table α key} {wanted other : κ} {f : α → α}
    {keeps : ∀ row, key (f row) = key row} (different : other ≠ wanted) :
    (table.modify wanted f keeps).find? other = table.find? other := by
  cases found : table.find? other with
  | none =>
      rw [find?_eq_none_iff]
      intro row member same
      rcases mem_modify.mp member with ⟨source, sourceMem, sourceKey, rfl⟩ | ⟨rowMem, _⟩
      · rw [keeps, sourceKey] at same
        exact different same.symm
      · exact find?_eq_none_iff.mp found row rowMem same
  | some row =>
      obtain ⟨member, same⟩ := find?_eq_some_iff.mp found
      rw [find?_eq_some_iff]
      exact ⟨mem_modify.mpr (Or.inr ⟨member, same ▸ different⟩), same⟩

/-- Append a row, unless its key is taken. -/
def insert? (table : Table α key) (row : α) : Option (Table α key) :=
  if taken : key row ∈ table.rows.map key then none
  else some
    { rows := table.rows ++ [row]
      distinct := by
        rw [List.map_append, List.map_singleton]
        exact table.distinct.append (List.nodup_singleton _) (by simpa using taken) }

theorem insert?_eq_some_iff {table after : Table α key} {row : α} :
    table.insert? row = some after ↔
      (∀ other ∈ table, key other ≠ key row) ∧ after.rows = table.rows ++ [row] := by
  unfold insert?
  split
  · rename_i taken
    obtain ⟨other, member, same⟩ := List.mem_map.mp taken
    constructor
    · intro equal
      contradiction
    · intro fresh
      exact absurd same (fresh.1 other member)
  · rename_i free
    constructor
    · intro equal
      cases equal
      exact ⟨fun other member same => free (List.mem_map.mpr ⟨other, member, same⟩), rfl⟩
    · rintro ⟨_, rows⟩
      exact congrArg some (Table.ext rows.symm)

/-- A row with a new key is appended. -/
theorem exists_insert? (table : Table α key) (row : α)
    (fresh : ∀ other ∈ table, key other ≠ key row) : ∃ after, table.insert? row = some after := by
  unfold insert?
  split
  · rename_i taken
    obtain ⟨other, member, same⟩ := List.mem_map.mp taken
    exact absurd same (fresh other member)
  · exact ⟨_, rfl⟩

/-- Write a row in the place of the one of its key: `INSERT OR REPLACE`. -/
def replace (table : Table α key) (row : α) : Table α key where
  rows := (table.rows.filter fun other => key other ≠ key row) ++ [row]
  distinct := by
    rw [List.map_append, List.map_singleton]
    refine (table.distinct.sublist (List.filter_sublist.map key)).append
      (List.nodup_singleton _) ?_
    simp

@[simp]
theorem rows_replace (table : Table α key) (row : α) :
    (table.replace row).rows = (table.rows.filter fun other => key other ≠ key row) ++ [row] := rfl

/-- Write a row over the one of its key, or append it: `INSERT … ON CONFLICT DO UPDATE`. -/
def upsert (table : Table α key) (row : α) : Table α key :=
  if taken : key row ∈ table.rows.map key then
    table.mapRows (fun other => if key other = key row then row else other) fun other => by
      split
      · rename_i same
        exact same.symm
      · rfl
  else
    { rows := table.rows ++ [row]
      distinct := by
        rw [List.map_append, List.map_singleton]
        exact table.distinct.append (List.nodup_singleton _) (by simpa using taken) }

/-- The rows are the written one and those of the other keys. -/
@[simp]
theorem mem_upsert {table : Table α key} {row other : α} :
    other ∈ table.upsert row ↔ other = row ∨ other ∈ table ∧ key other ≠ key row := by
  unfold upsert
  split
  · rename_i taken
    obtain ⟨old, oldMem, oldKey⟩ := List.mem_map.mp taken
    rw [mem_mapRows]
    constructor
    · rintro ⟨source, member, rfl⟩
      split
      · exact Or.inl rfl
      · rename_i different
        exact Or.inr ⟨member, different⟩
    · rintro (rfl | ⟨member, different⟩)
      · exact ⟨old, oldMem, if_pos oldKey⟩
      · exact ⟨other, member, if_neg different⟩
  · rename_i free
    rw [mem_def, List.mem_append, List.mem_singleton, or_comm]
    constructor
    · rintro (same | member)
      · exact Or.inl same
      · exact Or.inr ⟨member, fun same => free (List.mem_map.mpr ⟨other, member, same⟩)⟩
    · exact Or.imp id And.left

/-- A map that keeps a row goes before or after it is put. -/
theorem upsert_mapRows {table : Table α key} {f : α → α} {keeps : ∀ row, key (f row) = key row}
    {row : α} (kept : f row = row) :
    (table.mapRows f keeps).upsert row = (table.upsert row).mapRows f keeps := by
  have keys : (table.mapRows f keeps).rows.map key = table.rows.map key := by
    simp [Function.comp_def, keeps]
  apply Table.ext
  by_cases taken : key row ∈ table.rows.map key
  · rw [upsert, dif_pos (keys ▸ taken), upsert, dif_pos taken]
    simp only [rows_mapRows, List.map_map]
    refine List.map_congr_left fun other _ => ?_
    by_cases same : key other = key row
    · simp [keeps, same, kept]
    · simp [keeps, same]
  · rw [upsert, dif_neg (keys ▸ taken), upsert, dif_neg taken]
    simp [kept]

theorem find?_upsert_self {table : Table α key} {row : α} :
    (table.upsert row).find? (key row) = some row :=
  find?_eq_some_iff.mpr ⟨mem_upsert.mpr (Or.inl rfl), rfl⟩

theorem find?_upsert_of_ne {table : Table α key} {row : α} {other : κ}
    (different : other ≠ key row) : (table.upsert row).find? other = table.find? other := by
  cases found : table.find? other with
  | none =>
      rw [find?_eq_none_iff] at found ⊢
      intro source member same
      rcases mem_upsert.mp member with rfl | ⟨sourceMem, _⟩
      · exact different same.symm
      · exact found source sourceMem same
  | some source =>
      rw [find?_eq_some_iff] at found ⊢
      exact ⟨mem_upsert.mpr (Or.inr ⟨found.1, found.2 ▸ different⟩), found.2⟩

/-- Give the row of one key another key, unless that one is taken. -/
def rekey? (table : Table α key) (old new : κ) (set : α → α)
    (sets : ∀ row, key (set row) = new) : Option (Table α key) :=
  if taken : new ∈ table.rows.map key then none
  else some
    { rows := table.rows.map fun row => if key row = old then set row else row
      distinct := by
        rw [List.map_map]
        refine List.Nodup.map_on ?_ (List.Nodup.of_map key table.distinct)
        intro first firstMem second secondMem equal
        have free : ∀ row ∈ table.rows, key row ≠ new := fun row member same =>
          taken (List.mem_map.mpr ⟨row, member, same⟩)
        refine List.inj_on_of_nodup_map table.distinct firstMem secondMem ?_
        by_cases firstOld : key first = old <;> by_cases secondOld : key second = old
        · exact firstOld.trans secondOld.symm
        · simp only [Function.comp_apply, firstOld, secondOld, if_true, if_false, sets] at equal
          exact absurd equal.symm (free second secondMem)
        · simp only [Function.comp_apply, firstOld, secondOld, if_true, if_false, sets] at equal
          exact absurd equal (free first firstMem)
        · simpa only [Function.comp_apply, firstOld, secondOld, if_false] using equal }

theorem rekey?_eq_some {table renamed : Table α key} {old new : κ} {set : α → α}
    {sets : ∀ row, key (set row) = new}
    (found : table.rekey? old new set sets = some renamed) :
    renamed.rows = table.rows.map fun row => if key row = old then set row else row := by
  unfold rekey? at found
  split at found
  · contradiction
  · cases found
    rfl

/-- A row moves to a free key. -/
theorem exists_rekey? (table : Table α key) (old : κ) {new : κ} (set : α → α)
    (sets : ∀ row, key (set row) = new) (free : table.find? new = none) :
    ∃ renamed, table.rekey? old new set sets = some renamed := by
  unfold rekey?
  split
  · rename_i taken
    obtain ⟨row, member, same⟩ := List.mem_map.mp taken
    exact absurd same (find?_eq_none_iff.mp free row member)
  · exact ⟨_, rfl⟩

/-- The rows of the keys after one row moved to a free key. -/
theorem find?_rekeyed {table renamed : Table α key} {old new : κ} (set : α → α)
    (sets : ∀ row, key (set row) = new) (free : table.find? new = none) (different : old ≠ new)
    (rows : renamed.rows = table.rows.map fun row => if key row = old then set row else row)
    (wanted : κ) :
    renamed.find? wanted = if wanted = new then (table.find? old).map set
      else if wanted = old then none else table.find? wanted := by
  have source : ∀ row ∈ renamed, (∃ origin ∈ table, key origin = old ∧ set origin = row) ∨
      (row ∈ table ∧ key row ≠ old) := by
    intro row member
    rw [mem_def, rows] at member
    obtain ⟨origin, originMem, rfl⟩ := List.mem_map.mp member
    by_cases same : key origin = old
    · exact Or.inl ⟨origin, originMem, same, by rw [if_pos same]⟩
    · exact Or.inr (by rw [if_neg same]; exact ⟨originMem, same⟩)
  have target : ∀ row ∈ table, (if key row = old then set row else row) ∈ renamed := by
    intro row member
    rw [mem_def, rows]
    exact List.mem_map_of_mem member
  split
  · rename_i isNew
    subst isNew
    cases found : table.find? old with
    | none =>
        rw [Option.map_none, find?_eq_none_iff]
        intro row member same
        rcases source row member with ⟨origin, originMem, originKey, _⟩ | ⟨rowMem, _⟩
        · exact find?_eq_none_iff.mp found origin originMem originKey
        · exact find?_eq_none_iff.mp free row rowMem same
    | some row =>
        obtain ⟨member, same⟩ := find?_eq_some_iff.mp found
        have moved := target row member
        rw [if_pos same] at moved
        rw [Option.map_some, find?_eq_some_iff]
        exact ⟨moved, sets row⟩
  · rename_i notNew
    split
    · rename_i isOld
      rw [find?_eq_none_iff]
      intro row member same
      rcases source row member with ⟨origin, _, _, rfl⟩ | ⟨_, other⟩
      · exact different (isOld.symm.trans ((sets origin) ▸ same).symm)
      · exact other (same.trans isOld)
    · rename_i notOld
      cases found : table.find? wanted with
      | none =>
          rw [find?_eq_none_iff]
          intro row member same
          rcases source row member with ⟨origin, _, _, rfl⟩ | ⟨rowMem, _⟩
          · exact notNew ((sets origin) ▸ same).symm
          · exact find?_eq_none_iff.mp found row rowMem same
      | some row =>
          obtain ⟨member, same⟩ := find?_eq_some_iff.mp found
          have kept := target row member
          rw [if_neg (same ▸ notOld)] at kept
          exact find?_eq_some_iff.mpr ⟨kept, same⟩

/-! ## Lookups after whole-table operations -/

theorem find?_mapRows {table : Table α key} {f : α → α} {keeps : ∀ row, key (f row) = key row}
    {wanted : κ} : (table.mapRows f keeps).find? wanted = (table.find? wanted).map f := by
  have same : (fun row => decide (key row = wanted)) ∘ f = fun row => decide (key row = wanted) := by
    funext row
    rw [Function.comp_apply, keeps]
  unfold find?
  rw [rows_mapRows, List.find?_map, same]

theorem find?_filter {table : Table α key} {keep : α → Bool} {wanted : κ} :
    (table.filter keep).find? wanted = (table.find? wanted).filter keep := by
  cases found : table.find? wanted with
  | none =>
      rw [Option.filter_none, find?_eq_none_iff]
      intro row member
      exact find?_eq_none_iff.mp found row (mem_filter.mp member).1
  | some row =>
      rcases find?_eq_some_iff.mp found with ⟨member, same⟩
      by_cases kept : keep row = true
      · rw [Option.filter_some_pos kept, find?_eq_some_iff]
        exact ⟨mem_filter.mpr ⟨member, kept⟩, same⟩
      · rw [Option.filter_some_neg (Bool.eq_false_iff.mpr kept), find?_eq_none_iff]
        intro other otherMem otherKey
        rw [mem_filter] at otherMem
        rw [table.key_injective otherMem.1 member (otherKey.trans same.symm)] at otherMem
        exact kept otherMem.2

/-- `INSERT OR IGNORE`: the row of a key stays, a free key gets the inserted row. -/
theorem find?_insertOrIgnore {table : Table α key} {row : α} {wanted : κ} :
    ((table.insert? row).getD table).find? wanted =
      (table.find? wanted).or (if key row = wanted then some row else none) := by
  cases found : table.find? (key row) with
  | some other =>
      rcases find?_eq_some_iff.mp found with ⟨member, same⟩
      have refused : table.insert? row = none := by
        cases inserted : table.insert? row with
        | none => rfl
        | some after => exact absurd same ((insert?_eq_some_iff.mp inserted).1 other member)
      rw [refused, Option.getD_none]
      split
      · rename_i isKey
        rw [← isKey, found]
        rfl
      · rw [Option.or_none]
  | none =>
      rcases exists_insert? table row (find?_eq_none_iff.mp found) with ⟨after, inserted⟩
      rw [inserted, Option.getD_some]
      unfold find?
      rw [(insert?_eq_some_iff.mp inserted).2, List.find?_append, List.find?_singleton]
      simp only [decide_eq_true_eq]

/-- Writes of distinct keys, each of which touches the row of its own key. -/
theorem find?_foldl {β : Type*} {name : β → κ} {write : Table α key → β → Table α key}
    {put : β → Option α → Option α} (writes : ∀ table value wanted, (write table value).find? wanted =
      if name value = wanted then put value (table.find? wanted) else table.find? wanted)
    (values : List β) (distinct : (values.map name).Nodup) (table : Table α key) (wanted : κ) :
    (values.foldl write table).find? wanted =
      match values.find? fun value => name value = wanted with
      | some value => put value (table.find? wanted)
      | none => table.find? wanted := by
  induction values generalizing table with
  | nil => rfl
  | cons value rest inductionHypothesis =>
      rw [List.map_cons, List.nodup_cons] at distinct
      rw [List.foldl_cons, inductionHypothesis distinct.2, writes, List.find?_cons]
      by_cases same : name value = wanted
      · have later : rest.find? (fun other => name other = wanted) = none := by
          rw [List.find?_eq_none]
          intro other member otherName
          apply distinct.1
          rw [same, ← of_decide_eq_true otherName]
          exact List.mem_map_of_mem member
        simp only [same, later, if_true, decide_true]
      · simp only [same, if_false, decide_false]

end Table

/-! ## The newest row -/

section Newest

variable {α : Type u}

/-- The row with the greatest stamp, the first one of several. -/
def newest (stamp : α → Int) : List α → Option α
  | [] => none
  | row :: rest =>
      match newest stamp rest with
      | none => some row
      | some other => if stamp row < stamp other then some other else some row

theorem mem_of_newest {stamp : α → Int} {rows : List α} {row : α}
    (found : newest stamp rows = some row) : row ∈ rows := by
  induction rows with
  | nil => simp [newest] at found
  | cons head rest ih =>
      rw [newest] at found
      cases next : newest stamp rest with
      | none =>
          simp only [next, Option.some.injEq] at found
          exact found ▸ List.mem_cons_self
      | some other =>
          simp only [next] at found
          split at found
          · exact List.mem_cons_of_mem head (ih (found ▸ next))
          · exact Option.some.inj found ▸ List.mem_cons_self

theorem newest_eq_none_iff {stamp : α → Int} {rows : List α} :
    newest stamp rows = none ↔ rows = [] := by
  cases rows with
  | nil => simp [newest]
  | cons head rest =>
      simp only [newest, reduceCtorEq, iff_false]
      cases newest stamp rest with
      | none => simp
      | some other =>
          simp only
          split <;> simp

end Newest

end OhanaAgent.Store
