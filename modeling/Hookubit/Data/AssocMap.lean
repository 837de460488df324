/- digest: Keyed entries of which those that fail a condition are dropped. -/

import Mathlib.Data.List.AList

set_option autoImplicit false
set_option relaxedAutoImplicit false

namespace Hookubit.Data.AssocMap

universe u v

variable {κ : Type u} {β : Type v}

def retain (p : β → Bool) (m : AList fun _ : κ => β) : AList fun _ : κ => β :=
  ⟨m.entries.filter fun e => p e.2, m.nodupKeys.sublist List.filter_sublist⟩

variable [DecidableEq κ]

theorem lookup_retain (p : β → Bool) (m : AList fun _ : κ => β) (k : κ) :
    (retain p m).lookup k = (m.lookup k).filter p := by
  ext b
  rw [← Option.mem_def, AList.mem_lookup_iff, Option.filter_eq_some_iff, ← Option.mem_def,
    AList.mem_lookup_iff]
  exact List.mem_filter

end Hookubit.Data.AssocMap
