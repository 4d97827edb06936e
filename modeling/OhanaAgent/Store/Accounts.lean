import Mathlib.Data.List.Perm.Basic

/-!
# Accounts of queues

A queue is filled at its end, leaves from its front and may be cut.  What was
sent is accounted for by five lists: what left in order, what is queued, what
waits to be queued, what was cut and what was ignored.  The lemmas say how the
account follows the operations, as a permutation and as an order.
-/

namespace OhanaAgent.Store

universe u

variable {β : Type u} {sent left queue waiting lost ignored : List β}

theorem order_send (ordered : (left ++ (queue ++ waiting)).Sublist sent) {last : List β} :
    (left ++ (queue ++ (waiting ++ last))).Sublist (sent ++ last) := by
  have extended := ordered.append_right last
  simpa only [List.append_assoc] using extended

theorem order_leave {element : β}
    (ordered : (left ++ (element :: queue ++ waiting)).Sublist sent) :
    ((left ++ [element]) ++ (queue ++ waiting)).Sublist sent := by
  rw [List.append_assoc]
  exact ordered

theorem order_enqueue {batch later queue' added : List β}
    (ordered : (left ++ (queue ++ (batch ++ later))).Sublist sent)
    (kept : queue'.Sublist (queue ++ added)) (stored : added.Sublist batch) :
    (left ++ (queue' ++ later)).Sublist sent := by
  refine List.Sublist.trans ?_ ordered
  apply List.Sublist.append_left
  rw [← List.append_assoc]
  apply List.Sublist.append_right
  exact kept.trans (stored.append_left queue)

theorem conserve_send (conserved : sent.Perm (left ++ (queue ++ (waiting ++ (lost ++ ignored)))))
    {last : List β} :
    (sent ++ last).Perm (left ++ (queue ++ ((waiting ++ last) ++ (lost ++ ignored)))) := by
  refine (conserved.append_right last).trans ?_
  simp only [List.append_assoc]
  refine List.Perm.append_left _ (List.Perm.append_left _ (List.Perm.append_left _ ?_))
  rw [← List.append_assoc]
  exact List.perm_append_comm

theorem conserve_enqueue [DecidableEq β] {batch later queue' added lost' ignored' : List β}
    (conserved : sent.Perm (left ++ (queue ++ ((batch ++ later) ++ (lost ++ ignored)))))
    (stored : (added ++ ignored').Perm batch) (trimmed : (queue' ++ lost').Perm (queue ++ added)) :
    sent.Perm (left ++ (queue' ++ (later ++ ((lost ++ lost') ++ (ignored ++ ignored'))))) := by
  rw [List.perm_iff_count] at conserved stored trimmed ⊢
  intro element
  have total := conserved element
  have batched := stored element
  have split := trimmed element
  simp only [List.count_append] at total batched split ⊢
  omega

/-- One element of the queue or of what overflowed leaves. -/
theorem conserve_leave [DecidableEq β] {queue' lost' : List β} {element : β}
    (conserved : sent.Perm (left ++ (queue ++ (waiting ++ (lost ++ ignored)))))
    (moved : (element :: (queue' ++ lost')).Perm (queue ++ lost)) :
    sent.Perm ((left ++ [element]) ++ (queue' ++ (waiting ++ (lost' ++ ignored)))) := by
  rw [List.perm_iff_count] at conserved moved ⊢
  intro other
  have total := conserved other
  have counted := moved other
  simp only [List.count_append, List.count_cons, List.count_nil] at total counted ⊢
  omega

theorem conserve_ignore [DecidableEq β] {queue' ignored' : List β}
    (conserved : sent.Perm (left ++ (queue ++ (waiting ++ (lost ++ ignored)))))
    (moved : (queue' ++ ignored').Perm queue) :
    sent.Perm (left ++ (queue' ++ (waiting ++ (lost ++ (ignored ++ ignored'))))) := by
  rw [List.perm_iff_count] at conserved moved ⊢
  intro other
  have total := conserved other
  have counted := moved other
  simp only [List.count_append] at total counted ⊢
  omega


/-- In a list that ascends, the elements from one on are those after it. -/
theorem filter_le_eq_drop (rank : β → Nat) {list : List β}
    (ascending : list.Pairwise fun older newer => rank older < rank newer) {position : Nat}
    {element : β} (found : list[position]? = some element) :
    list.filter (fun other => decide (rank element ≤ rank other)) = list.drop position := by
  induction list generalizing position with
  | nil => simp at found
  | cons head tail ih =>
      obtain ⟨before, rest⟩ := List.pairwise_cons.mp ascending
      cases position with
      | zero =>
          obtain rfl : head = element := by simpa using found
          rw [List.drop_zero, List.filter_eq_self]
          intro other member
          rcases List.mem_cons.mp member with rfl | member
          · simp
          · exact decide_eq_true (Nat.le_of_lt (before other member))
      | succ position =>
          have inTail : tail[position]? = some element := by simpa using found
          have later := before element (List.mem_of_getElem? inTail)
          rw [List.filter_cons_of_neg (by simp [later]), List.drop_succ_cons]
          exact ih rest inTail

end OhanaAgent.Store
