import Mathlib.Data.List.Sort

/-!
# Sorting a list which is sorted

When a list is read back in the order of some key, it comes back as it is exactly if its entries
are in that order.  Reading it backwards then begins with its last entry.
-/

namespace Hermes

variable {α : Type} {list : List α} (order : α → α → Prop) [DecidableRel order]

theorem insertionSort_eq_self_iff [Std.Total order] [IsTrans α order] :
    list.insertionSort order = list ↔ list.Pairwise order := by
  constructor
  · intro unchanged
    rw [← unchanged]
    exact List.pairwise_insertionSort order list
  · exact List.Pairwise.insertionSort_eq

theorem head?_insertionSort_converse [Std.Total order] [IsTrans α order]
    (antisymmetric : ∀ first ∈ list, ∀ second ∈ list, order first second → order second first →
      first = second)
    (sorted : list.Pairwise order) :
    (list.insertionSort fun first second => order second first).head? = list.getLast? := by
  have : Std.Total fun first second => order second first :=
    ⟨fun first second => Std.Total.total second first⟩
  have : IsTrans α fun first second => order second first :=
    ⟨fun _ _ _ former latter => IsTrans.trans _ _ _ latter former⟩
  have reversed : (list.insertionSort fun first second => order second first) = list.reverse := by
    apply List.Perm.eq_of_pairwise
    · intro first second firstIn secondIn later earlier
      rw [List.mem_insertionSort] at firstIn
      exact antisymmetric first firstIn second (List.mem_reverse.mp secondIn) earlier later
    · exact List.pairwise_insertionSort _ list
    · exact List.pairwise_reverse.mpr sorted
    · exact (List.perm_insertionSort _ list).trans (List.reverse_perm list).symm
  rw [reversed, List.head?_reverse]

end Hermes
