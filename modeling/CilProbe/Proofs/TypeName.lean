import CilProbe.Proofs.Lists
import CilProbe.TypeName

/-!
# Points in names

What stands behind the last point of a text is found in its last part, if there is a point in it
(`afterLastPoint_append_of_mem`), and else goes on in front of it (`afterLastPoint_append_of_notMem`).  So a name without
points is found behind its namespace (`afterLastPoint_qualified`), and a qualified name can be read in one way only
(`qualified_inj`).
-/

namespace CilProbe.TypeName

theorem afterLastPoint_of_notMem {text : String} (h : '.' ∉ text.toList) : afterLastPoint text = text := by
  rw [afterLastPoint, reverse_takeWhile_of_notMem h, String.ofList_toList]

theorem afterLastPoint_append_of_notMem {rest : String} (h : '.' ∉ rest.toList) (front : String) :
    afterLastPoint (front ++ rest) = afterLastPoint front ++ rest := by
  refine String.toList_injective ?_
  rw [afterLastPoint, afterLastPoint, String.toList_append, String.toList_append, String.toList_ofList,
    String.toList_ofList, reverse_takeWhile_append_of_notMem h]

theorem afterLastPoint_append_of_mem {rest : String} (h : '.' ∈ rest.toList) (front : String) :
    afterLastPoint (front ++ rest) = afterLastPoint rest := by
  rw [afterLastPoint, afterLastPoint, String.toList_append, reverse_takeWhile_append_of_mem h]

theorem afterLastPoint_qualified {name : String} (h : '.' ∉ name.toList) (space : String) :
    afterLastPoint (qualified space name) = name := by
  rw [qualified]
  split
  · exact afterLastPoint_of_notMem h
  · rw [afterLastPoint_append_of_notMem h, afterLastPoint_append_of_mem (by decide)]
    exact String.empty_append

theorem qualified_inj {space space' name name' : String} (h : '.' ∉ name.toList) (h' : '.' ∉ name'.toList)
    (heq : qualified space name = qualified space' name') : space = space' ∧ name = name' := by
  have hname : name = name' := by rw [← afterLastPoint_qualified h space, heq, afterLastPoint_qualified h' space']
  subst hname
  refine ⟨?_, rfl⟩
  -- With one of the namespaces empty, the name itself would hold the point behind the other one.
  by_cases hspace : space = "" <;> by_cases hspace' : space' = ""
  · rw [hspace, hspace']
  · have hpoint : '.' ∈ name.toList := by
      rw [show name = space' ++ "." ++ name by simpa [qualified, hspace, hspace'] using heq]
      simp
    contradiction
  · have hpoint : '.' ∈ name.toList := by
      rw [show name = space ++ "." ++ name by simpa [qualified, hspace, hspace'] using heq.symm]
      simp
    contradiction
  · simpa [qualified, hspace, hspace'] using heq

end CilProbe.TypeName
