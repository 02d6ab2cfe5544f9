set_option autoImplicit false

/-!
# Characters around a separator

Characters fall into what stands before the first separator and what stands
behind it, and also into what stands before and behind the last one.  Either is
told by a part without separators on its side.
-/

namespace Meshway.Text

variable {sep : Char} {front front' back back' : List Char}

theorem forall_bne {cs : List Char} (h : sep ∉ cs) : ∀ c ∈ cs, (c != sep) = true := fun _ hc =>
  bne_iff_ne.2 fun heq => h (heq ▸ hc)

theorem takeWhile_front (h : sep ∉ front) (back : List Char) :
    (front ++ sep :: back).takeWhile (· != sep) = front := by
  rw [List.takeWhile_append_of_pos (forall_bne h), List.takeWhile_cons_of_neg (by simp),
    List.append_nil]

theorem dropWhile_front (h : sep ∉ front) (back : List Char) :
    (front ++ sep :: back).dropWhile (· != sep) = sep :: back := by
  rw [List.dropWhile_append_of_pos (forall_bne h), List.dropWhile_cons_of_neg (by simp)]

theorem dropWhile_of_notMem {cs : List Char} (h : sep ∉ cs) : cs.dropWhile (· != sep) = [] := by
  have hdrop : (cs ++ []).dropWhile (· != sep) = [] :=
    List.dropWhile_append_of_pos (forall_bne h)
  rwa [List.append_nil] at hdrop

/-- The first separator divides characters in one way. -/
theorem eq_of_first (h : sep ∉ front) (h' : sep ∉ front')
    (heq : front ++ sep :: back = front' ++ sep :: back') : front = front' ∧ back = back' := by
  have hfront := congrArg (List.takeWhile (· != sep)) heq
  have hback := congrArg (List.dropWhile (· != sep)) heq
  rw [takeWhile_front h, takeWhile_front h'] at hfront
  rw [dropWhile_front h, dropWhile_front h'] at hback
  exact ⟨hfront, (List.cons.inj hback).2⟩

/-- So does the last one. -/
theorem eq_of_last (h : sep ∉ back) (h' : sep ∉ back')
    (heq : front ++ sep :: back = front' ++ sep :: back') : front = front' ∧ back = back' := by
  have hreverse := congrArg List.reverse heq
  simp only [List.reverse_append, List.reverse_cons, List.append_assoc, List.singleton_append]
    at hreverse
  obtain ⟨hback, hfront⟩ := eq_of_first (by simpa using h) (by simpa using h') hreverse
  exact ⟨List.reverse_inj.1 hfront, List.reverse_inj.1 hback⟩

end Meshway.Text
