import OhanaAgent.Transition.Cycles
import Mathlib.Data.List.Count
import Mathlib.Data.List.Nodup
import Mathlib.Data.List.Perm.Subperm

/-!
# Ordering by dependencies

An element waits for the elements it needs.  Elements that wait for nothing enter
a queue; an element that leaves it releases the elements that need it, once for
each mention.  The order is complete exactly when no element leads back to itself.
-/

namespace OhanaAgent.Transition

universe u

variable {α : Type u}

/-- Every element stands after the elements it needs. -/
def Ordered (needs : α → List α) (list : List α) : Prop :=
  ∀ before element after, list = before ++ element :: after → ∀ need ∈ needs element,
    need ∈ before

theorem ordered_nil (needs : α → List α) : Ordered needs [] := by
  intro before element after equal
  simp at equal

theorem Ordered.concat {needs : α → List α} {list : List α} {element : α}
    (ordered : Ordered needs list) (met : ∀ need ∈ needs element, need ∈ list) :
    Ordered needs (list ++ [element]) := by
  intro before other after equal need needed
  rcases List.eq_nil_or_concat' after with rfl | ⟨rest, last, rfl⟩
  · obtain ⟨rfl, same⟩ := List.append_inj' equal rfl
    cases same
    exact met need needed
  · rw [← List.cons_append, ← List.append_assoc] at equal
    obtain ⟨rfl, _⟩ := List.append_inj' equal rfl
    exact ordered before other rest rfl need needed

variable [DecidableEq α]

theorem Ordered.idxOf_lt {needs : α → List α} {list : List α} (ordered : Ordered needs list)
    {element need : α} (member : element ∈ list) (needed : need ∈ needs element) :
    list.idxOf need < list.idxOf element := by
  obtain ⟨before, after, equal, absent⟩ := List.eq_append_cons_of_mem member
  have earlier := ordered before element after equal need needed
  rw [equal, List.idxOf_append_of_mem earlier, List.idxOf_append_of_notMem absent]
  exact (List.idxOf_lt_length_iff.mpr earlier).trans_le (Nat.le_add_right _ _)

/-! ## The queue -/

/-- How far the ordering came: what each element still waits for, the elements
that wait for nothing, and the elements already in order. -/
structure Progress (α : Type u) where
  remaining : α → Int
  queue : List α
  ordered : List α

namespace Progress

/-- One need of an element is met. -/
def release (progress : Progress α) (dependent : α) : Progress α :=
  let left := progress.remaining dependent - 1
  { progress with
    remaining := Function.update progress.remaining dependent left
    queue := if left = 0 then progress.queue ++ [dependent] else progress.queue }

/-- Put an element in order and release what needs it. -/
def visit (dependents : α → List α) (element : α) (progress : Progress α) : Progress α :=
  (dependents element).foldl release { progress with ordered := progress.ordered ++ [element] }

/-- Empty the queue, in at most so many visits. -/
def drain (dependents : α → List α) : Nat → Progress α → Progress α
  | 0, progress => progress
  | visits + 1, progress =>
      match progress.queue with
      | [] => progress
      | element :: rest =>
          drain dependents visits (visit dependents element { progress with queue := rest })

/-- What a list of releases comes to. -/
structure Released (before : Progress α) (dependents : List α) (after : Progress α)
    (released : List α) : Prop where
  remaining : ∀ element, after.remaining element =
    before.remaining element - dependents.count element
  queue : after.queue = before.queue ++ released
  ordered : after.ordered = before.ordered
  mem_iff : ∀ element, element ∈ released ↔
    element ∈ dependents ∧ before.remaining element = dependents.count element
  distinct : released.Nodup

theorem remaining_release (progress : Progress α) (dependent element : α) :
    (progress.release dependent).remaining element =
      progress.remaining element - if element = dependent then 1 else 0 := by
  by_cases same : element = dependent
  · subst same
    simp [release]
  · simp [release, same]

theorem exists_released (dependents : List α) (before : Progress α)
    (enough : ∀ element ∈ dependents, (dependents.count element : Int) ≤ before.remaining element) :
    ∃ released, Released before dependents (dependents.foldl release before) released := by
  induction dependents generalizing before with
  | nil => exact ⟨[], by simp, by simp, rfl, by simp, List.nodup_nil⟩
  | cons first rest ih =>
    have left : ∀ element ∈ rest, (rest.count element : Int) ≤
        (before.release first).remaining element := by
      intro element member
      have bound := enough element (List.mem_cons_of_mem first member)
      rw [remaining_release]
      by_cases same : element = first
      · subst same
        rw [List.count_cons_self] at bound
        rw [if_pos rfl]
        omega
      · rw [List.count_cons_of_ne (Ne.symm same)] at bound
        rw [if_neg same, Int.sub_zero]
        exact bound
    obtain ⟨released, spec⟩ := ih (before.release first) left
    have bound := enough first List.mem_cons_self
    rw [List.count_cons_self] at bound
    have remaining : ∀ element, ((first :: rest).foldl release before).remaining element =
        before.remaining element - (first :: rest).count element := by
      intro element
      rw [List.foldl_cons, spec.remaining, remaining_release, List.count_cons]
      by_cases same : element = first
      · subst same
        simp
        omega
      · simp [same, Ne.symm same]
    by_cases done : before.remaining first = 1
    · have absent : first ∉ rest := fun member => by
        have := List.count_pos_iff.mpr member
        omega
      refine ⟨first :: released, remaining, ?_, spec.ordered, ?_, ?_⟩
      · have none : before.remaining first - 1 = 0 := by omega
        rw [List.foldl_cons, spec.queue]
        simp [release, none]
      · intro element
        rw [List.mem_cons, spec.mem_iff, remaining_release, List.mem_cons, List.count_cons]
        by_cases same : element = first
        · subst same
          simp [done, List.count_eq_zero_of_not_mem absent]
        · simp [same, Ne.symm same]
      · exact List.nodup_cons.mpr ⟨fun member => absent ((spec.mem_iff first).mp member).1,
          spec.distinct⟩
    · refine ⟨released, remaining, ?_, spec.ordered, ?_, spec.distinct⟩
      · have more : before.remaining first - 1 ≠ 0 := by omega
        rw [List.foldl_cons, spec.queue]
        simp [release, more]
      · intro element
        rw [spec.mem_iff, remaining_release, List.mem_cons, List.count_cons]
        by_cases same : element = first
        · subst same
          constructor
          · rintro ⟨_, equal⟩
            simp only [if_true] at equal
            simp
            omega
          · rintro ⟨_, equal⟩
            have member : element ∈ rest := by
              by_contra absent
              rw [List.count_eq_zero_of_not_mem absent] at equal
              simp at equal
              omega
            simp_all
        · simp [same, Ne.symm same]

/-- The bookkeeping of an ordering in progress: an element is in order or in the
queue exactly when all it needs is in order. -/
structure Sound (elements : List α) (needs : α → List α) (progress : Progress α) : Prop where
  distinct : (progress.ordered ++ progress.queue).Nodup
  known : ∀ element ∈ progress.ordered ++ progress.queue, element ∈ elements
  remaining : ∀ element ∈ elements, progress.remaining element =
    ((needs element).countP fun need => decide (need ∉ progress.ordered) : Nat)
  ready_iff : ∀ element ∈ elements, element ∈ progress.ordered ++ progress.queue ↔
    ∀ need ∈ needs element, need ∈ progress.ordered
  ordered : Ordered needs progress.ordered

/-- Each element is named once for each time it needs the other. -/
def Lists (elements : List α) (needs dependents : α → List α) : Prop :=
  ∀ need element, (dependents need).count element =
    if element ∈ elements then (needs element).count need else 0

theorem countP_not_mem_concat {ordered : List α} {element : α} (absent : element ∉ ordered)
    (list : List α) :
    list.countP (fun need => decide (need ∉ ordered)) =
      list.countP (fun need => decide (need ∉ ordered ++ [element])) + list.count element := by
  induction list with
  | nil => rfl
  | cons first rest ih =>
    rw [List.countP_cons, List.countP_cons, List.count_cons, ih]
    by_cases same : first = element
    · subst same
      simp [absent]
      omega
    · by_cases inside : first ∈ ordered <;> simp [same, inside]
      omega

theorem countP_not_mem_eq_zero {ordered list : List α} :
    list.countP (fun need => decide (need ∉ ordered)) = 0 ↔ ∀ need ∈ list, need ∈ ordered := by
  rw [List.countP_eq_zero]
  simp

variable {elements : List α} {needs dependents : α → List α} {progress : Progress α}

/-- One visit keeps the bookkeeping. -/
theorem Sound.visit (sound : Sound elements needs progress)
    (lists : Lists elements needs dependents) {element : α} {rest : List α}
    (next : progress.queue = element :: rest) :
    Sound elements needs
        (Progress.visit dependents element { progress with queue := rest }) ∧
      (Progress.visit dependents element { progress with queue := rest }).ordered =
        progress.ordered ++ [element] := by
  have distinct := sound.distinct
  rw [next] at distinct
  have absent : element ∉ progress.ordered := fun member =>
    (List.nodup_append.mp distinct).2.2 element member element List.mem_cons_self rfl
  have waiting : element ∈ progress.ordered ++ progress.queue := by simp [next]
  have inside := sound.known element waiting
  have needed : ∀ other ∈ elements, progress.remaining other =
      ((needs other).countP fun need => decide (need ∉ progress.ordered ++ [element]) : Nat) +
        ((dependents element).count other : Nat) := by
    intro other member
    rw [sound.remaining other member, countP_not_mem_concat absent, lists, if_pos member]
    exact Int.natCast_add _ _
  have enough : ∀ other ∈ dependents element,
      ((dependents element).count other : Int) ≤ progress.remaining other := by
    intro other member
    have some := List.count_pos_iff.mpr member
    rw [lists] at some
    have known : other ∈ elements := by
      by_contra unknown
      simp [unknown] at some
    rw [needed other known]
    omega
  obtain ⟨released, spec⟩ := exists_released (dependents element)
    { progress with queue := rest, ordered := progress.ordered ++ [element] } enough
  have mem_released : ∀ other ∈ elements, other ∈ released ↔ element ∈ needs other ∧
      ∀ need ∈ needs other, need ∈ progress.ordered ++ [element] := by
    intro other member
    have count : other ∈ dependents element ↔ element ∈ needs other := by
      rw [← List.count_pos_iff, lists, if_pos member, List.count_pos_iff]
    rw [spec.mem_iff, count, needed other member, ← countP_not_mem_eq_zero]
    constructor
    · rintro ⟨leads, equal⟩
      exact ⟨leads, by omega⟩
    · rintro ⟨leads, equal⟩
      exact ⟨leads, by omega⟩
  have released_known : ∀ other ∈ released, other ∈ elements := by
    intro other member
    have some := List.count_pos_iff.mpr ((spec.mem_iff other).mp member).1
    rw [lists] at some
    by_contra unknown
    simp [unknown] at some
  refine ⟨⟨?_, ?_, ?_, ?_, ?_⟩, spec.ordered⟩
  · rw [Progress.visit, spec.ordered, spec.queue]
    rw [← List.append_assoc, List.append_assoc progress.ordered, List.singleton_append,
      List.nodup_append]
    refine ⟨distinct, spec.distinct, ?_⟩
    rintro other old _ new rfl
    have known := released_known other new
    have met := (sound.ready_iff other known).mp (by rwa [next])
    exact absent (met element ((mem_released other known).mp new).1)
  · rw [Progress.visit, spec.ordered, spec.queue]
    intro other member
    rw [← List.append_assoc, List.append_assoc progress.ordered, List.singleton_append,
      List.mem_append] at member
    rcases member with old | new
    · exact sound.known other (by rwa [next])
    · exact released_known other new
  · intro other member
    rw [Progress.visit, spec.remaining, spec.ordered]
    exact Int.sub_eq_iff_eq_add.mpr (needed other member)
  · intro other member
    rw [Progress.visit, spec.ordered, spec.queue, ← List.append_assoc,
      List.append_assoc progress.ordered, List.singleton_append, List.mem_append, ← next,
      sound.ready_iff other member, mem_released other member]
    constructor
    · rintro (met | ⟨_, met⟩)
      · exact fun need needed => List.mem_append_left _ (met need needed)
      · exact met
    · intro met
      by_cases leads : element ∈ needs other
      · exact Or.inr ⟨leads, met⟩
      · refine Or.inl fun need needed => ?_
        rcases List.mem_append.mp (met need needed) with old | new
        · exact old
        · exact absurd (List.mem_singleton.mp new ▸ needed) leads
  · rw [Progress.visit, spec.ordered]
    exact sound.ordered.concat ((sound.ready_iff element inside).mp waiting)

theorem Sound.length_le (sound : Sound elements needs progress) :
    progress.ordered.length + progress.queue.length ≤ elements.length := by
  rw [← List.length_append]
  exact (sound.distinct.subperm sound.known).length_le

/-- With a visit for each element, the queue runs empty. -/
theorem Sound.drain (lists : Lists elements needs dependents) (visits : Nat)
    {progress : Progress α} (sound : Sound elements needs progress)
    (enough : elements.length ≤ progress.ordered.length + visits) :
    Sound elements needs (Progress.drain dependents visits progress) ∧
      (Progress.drain dependents visits progress).queue = [] := by
  induction visits generalizing progress with
  | zero =>
    have bound := sound.length_le
    rw [Progress.drain]
    exact ⟨sound, List.length_eq_zero_iff.mp (by omega)⟩
  | succ visits ih =>
    rw [Progress.drain]
    split
    case h_1 empty => exact ⟨sound, empty⟩
    case h_2 element rest next =>
      obtain ⟨kept, ordered⟩ := sound.visit lists next
      refine ih kept ?_
      rw [ordered, List.length_append, List.length_singleton]
      omega

end Progress

/-! ## The order -/

/-- One turn of the inner loop over the declarations: an element needs another. -/
def link (element : α) (links : (α → List α) × (α → Int)) (need : α) :
    (α → List α) × (α → Int) :=
  (Function.update links.1 need (links.1 need ++ [element]),
    Function.update links.2 element (links.2 element + 1))

/-- One turn of the outer loop. -/
def linkAll (links : (α → List α) × (α → Int)) (declaration : α × List α) :
    (α → List α) × (α → Int) :=
  declaration.2.foldl (link declaration.1) links

/-- The elements that need each element, and the number of needs of each. -/
def links (declarations : List (α × List α)) : (α → List α) × (α → Int) :=
  declarations.foldl linkAll (fun _ => [], fun _ => 0)

/-- Order the elements that declare what they need; nothing when some of them wait
for one another. -/
def dependencyOrder (declarations : List (α × List α)) : Option (List α) :=
  let (graph, indegree) := links declarations
  let progress := Progress.drain graph declarations.length
    { remaining := indegree
      queue := (declarations.map Prod.fst).filter fun element => indegree element = 0
      ordered := [] }
  if progress.ordered.length = declarations.length then some progress.ordered else none

/-- What the declarations of an element name. -/
def declared (declarations : List (α × List α)) (element : α) : List α :=
  (declarations.filter fun declaration => declaration.1 = element).flatMap Prod.snd

theorem foldl_link (element : α) (needs : List α) (start : (α → List α) × (α → Int))
    (need other : α) :
    ((needs.foldl (link element) start).1 need).count other =
        (start.1 need).count other + (if other = element then needs.count need else 0) ∧
      (needs.foldl (link element) start).2 other =
        start.2 other + if other = element then (needs.length : Int) else 0 := by
  induction needs generalizing start with
  | nil => simp
  | cons first rest ih =>
    obtain ⟨graph, indegree⟩ := ih (link element start first)
    rw [List.foldl_cons, graph, indegree]
    constructor
    · by_cases found : need = first
      · subst found
        by_cases same : other = element
        · subst same
          simp [link]
          omega
        · simp [link, same, Ne.symm same]
      · simp [link, found, Ne.symm found]
    · by_cases same : other = element
      · subst same
        simp [link]
        omega
      · simp [link, same]

theorem foldl_linkAll (declarations : List (α × List α)) (start : (α → List α) × (α → Int))
    (need other : α) :
    ((declarations.foldl linkAll start).1 need).count other =
        (start.1 need).count other + (declared declarations other).count need ∧
      (declarations.foldl linkAll start).2 other =
        start.2 other + (declared declarations other).length := by
  induction declarations generalizing start with
  | nil => simp [declared]
  | cons first rest ih =>
    obtain ⟨graph, indegree⟩ := ih (linkAll start first)
    obtain ⟨graphFirst, indegreeFirst⟩ := foldl_link first.1 first.2 start need other
    rw [linkAll, graphFirst] at graph
    rw [linkAll, indegreeFirst] at indegree
    rw [List.foldl_cons, linkAll, graph, indegree]
    by_cases same : other = first.1
    · subst same
      simp [declared, Nat.add_assoc, Int.add_assoc]
    · simp [declared, same, Ne.symm same]

variable {declarations : List (α × List α)}

theorem declared_of_not_mem {element : α} (unknown : element ∉ declarations.map Prod.fst) :
    declared declarations element = [] := by
  have none : declarations.filter (fun declaration => declaration.1 = element) = [] := by
    rw [List.filter_eq_nil_iff]
    intro declaration member
    simp only [decide_eq_true_eq]
    rintro rfl
    exact unknown (List.mem_map_of_mem member)
  rw [declared, none, List.flatMap_nil]

/-- Where each element declares once, its declaration says what it needs. -/
theorem mem_declared_iff (element need : α) :
    need ∈ declared declarations element ↔
      ∃ needs, (element, needs) ∈ declarations ∧ need ∈ needs := by
  simp only [declared, List.mem_flatMap, List.mem_filter, decide_eq_true_eq]
  constructor
  · rintro ⟨⟨_, needs⟩, ⟨member, rfl⟩, needed⟩
    exact ⟨needs, member, needed⟩
  · rintro ⟨needs, member, needed⟩
    exact ⟨(element, needs), ⟨member, rfl⟩, needed⟩

theorem lists_links (declarations : List (α × List α)) :
    Progress.Lists (declarations.map Prod.fst) (declared declarations)
      (links declarations).1 := by
  intro need other
  rw [links, (foldl_linkAll declarations _ need other).1]
  by_cases member : other ∈ declarations.map Prod.fst
  · rw [if_pos member]
    simp
  · rw [if_neg member, declared_of_not_mem member]
    simp

theorem indegree_links (declarations : List (α × List α)) (element : α) :
    (links declarations).2 element = (declared declarations element).length := by
  rw [links, (foldl_linkAll declarations _ element element).2]
  simp

/-- What the queue starts from. -/
theorem sound_start (distinct : (declarations.map Prod.fst).Nodup) :
    Progress.Sound (declarations.map Prod.fst) (declared declarations)
      { remaining := (links declarations).2
        queue := (declarations.map Prod.fst).filter fun element =>
          (links declarations).2 element = 0
        ordered := [] } where
  distinct := distinct.filter _
  known _ member := List.mem_of_mem_filter member
  remaining element member := by
    simp [indegree_links]
  ready_iff element member := by
    simp [member, indegree_links, List.eq_nil_iff_forall_not_mem]
  ordered := ordered_nil _

/-- Where the queue ends. -/
theorem sound_end (distinct : (declarations.map Prod.fst).Nodup) :
    ∃ progress, Progress.Sound (declarations.map Prod.fst) (declared declarations) progress ∧
      progress.queue = [] ∧ dependencyOrder declarations =
        if progress.ordered.length = declarations.length then some progress.ordered else none := by
  obtain ⟨sound, empty⟩ := (sound_start distinct).drain (lists_links declarations)
    declarations.length (by simp)
  exact ⟨_, sound, empty, rfl⟩

/-- What an order holds: each element once, after the elements it needs. -/
theorem dependencyOrder_eq_some (distinct : (declarations.map Prod.fst).Nodup) {order : List α}
    (found : dependencyOrder declarations = some order) :
    order.Perm (declarations.map Prod.fst) ∧ Ordered (declared declarations) order := by
  obtain ⟨progress, sound, empty, outcome⟩ := sound_end distinct
  rw [outcome, Option.ite_none_right_eq_some, Option.some.injEq] at found
  obtain ⟨complete, rfl⟩ := found
  have known := sound.known
  have once := sound.distinct
  rw [empty, List.append_nil] at known once
  exact ⟨(once.subperm known).perm_of_length_le (by rw [List.length_map]; exact complete.ge),
    sound.ordered⟩

/-- There is an order exactly when no element leads back to itself. -/
theorem dependencyOrder_isSome_iff (distinct : (declarations.map Prod.fst).Nodup)
    (closed : ∀ element need, need ∈ declared declarations element →
      need ∈ declarations.map Prod.fst) :
    (dependencyOrder declarations).isSome ↔
      Acyclic fun element need => need ∈ declared declarations element := by
  have inside : ∀ {element need}, need ∈ declared declarations element →
      element ∈ declarations.map Prod.fst := by
    intro element need needed
    by_contra unknown
    simp [declared_of_not_mem unknown] at needed
  constructor
  · intro found
    obtain ⟨order, found⟩ := Option.isSome_iff_exists.mp found
    obtain ⟨perm, ordered⟩ := dependencyOrder_eq_some distinct found
    exact acyclic_of_rank order.idxOf fun _ _ needed =>
      ordered.idxOf_lt (perm.mem_iff.mpr (inside needed)) needed
  · intro acyclic
    obtain ⟨progress, sound, empty, outcome⟩ := sound_end distinct
    have ready := sound.ready_iff
    have once := sound.distinct
    have known := sound.known
    rw [empty, List.append_nil] at ready once known
    by_contra incomplete
    rw [outcome, Option.isSome_ite] at incomplete
    have left : (declarations.map Prod.fst).filter
        (fun element => decide (element ∉ progress.ordered)) ≠ [] := by
      intro none
      rw [List.filter_eq_nil_iff] at none
      have all := distinct.subperm fun element member => not_not.mp
        (by simpa using none element member)
      refine incomplete (le_antisymm ?_ ?_)
      · simpa using (once.subperm known).length_le
      · simpa using all.length_le
    -- an element that is left needs an element that is left
    obtain ⟨element, _, cycle⟩ := exists_cycle_of_mem
      (r := fun element need => need ∈ declared declarations element) left
      fun element member => by
        rw [List.mem_filter, decide_eq_true_eq] at member
        have waits := mt (ready element member.1).mpr member.2
        push Not at waits
        obtain ⟨need, needed, late⟩ := waits
        exact ⟨need, List.mem_filter.mpr ⟨closed element need needed, decide_eq_true late⟩, needed⟩
    exact acyclic element cycle

end OhanaAgent.Transition
