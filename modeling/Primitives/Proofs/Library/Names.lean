import Mathlib.Data.List.Nodup
import Primitives.Library.Basic
import Primitives.Proofs.Text.Ascii

/-!
# Qualified names

Modules have different names without a dot, and the operations of a module have different names. So a qualified
name belongs to one operation, which is the one that is found and called by it.

## Main results

* `Library.qualified_inj`: qualified names of different operations differ.
* `Library.call_qualified`: an operation is called by its qualified name.
-/

namespace Primitives.Library

/-! ### Looking up -/

section Lookup

variable {α β : Type} {l : List α} {a : α}

/-- The only element that is looked for is found. -/
theorem find?_eq_some_of_forall {p : α → Bool} (hmem : a ∈ l) (hp : p a)
    (hunique : ∀ b ∈ l, p b → b = a) : l.find? p = some a := by
  cases hfind : l.find? p with
  | none => exact absurd hp (List.find?_eq_none.1 hfind a hmem)
  | some b => rw [hunique b (List.mem_of_find?_eq_some hfind) (List.find?_some hfind)]

/-- The only result that is looked for is found. -/
theorem findSome?_eq_some_of_forall {f : α → Option β} {b : β} (hmem : a ∈ l) (hf : f a = some b)
    (hunique : ∀ a' ∈ l, ∀ b' ∈ f a', b' = b) : l.findSome? f = some b := by
  cases hfind : l.findSome? f with
  | none => exact nomatch (List.findSome?_eq_none_iff.1 hfind a hmem).symm.trans hf
  | some b' =>
    obtain ⟨a', hmem', hf'⟩ := List.exists_of_findSome?_eq_some hfind
    rw [hunique a' hmem' b' hf']

end Lookup

/-! ### Names -/

/-- A qualified name is parted at its first dot. -/
theorem takeWhile_dropWhile_qualified {m : String} (hm : '.' ∉ m.toList) (name : String) :
    (qualified m name).takeWhile (· != '.') = m.toList ∧
      (qualified m name).dropWhile (· != '.') = '.' :: name.toList := by
  refine Text.takeWhile_dropWhile_append (fun c hc => ?_) (by simp)
  exact bne_iff_ne.2 fun heq => hm (heq ▸ hc)

theorem qualified_inj {m m' name name' : String} (hm : '.' ∉ m.toList) (hm' : '.' ∉ m'.toList)
    (h : qualified m name = qualified m' name') : m = m' ∧ name = name' := by
  obtain ⟨htake, hdrop⟩ := takeWhile_dropWhile_qualified hm name
  obtain ⟨htake', hdrop'⟩ := takeWhile_dropWhile_qualified hm' name'
  rw [h] at htake hdrop
  exact ⟨String.toList_inj.1 (htake.symm.trans htake'),
    String.toList_inj.1 (List.cons.inj (hdrop.symm.trans hdrop')).2⟩

variable [Surroundings]

theorem map_fst_modules : modules.map Prod.fst = ["string", "math", "io", "fs"] :=
  rfl

theorem dot_notMem_moduleName : ∀ m ∈ modules, '.' ∉ m.1.toList := by
  have hnames : ∀ name ∈ modules.map Prod.fst, '.' ∉ name.toList := by
    rw [map_fst_modules]
    decide
  exact fun m hm => hnames m.1 (List.mem_map_of_mem hm)

theorem nodup_moduleNames : (modules.map Prod.fst).Nodup := by
  rw [map_fst_modules]
  decide

theorem nodup_operationNames : ∀ m ∈ modules, (m.2.map Operation.name).Nodup := by
  -- The lists of names do not depend on the surroundings, and once they are written out they can be decided.
  simp only [modules, List.forall_mem_cons, textOperations, numberOperations, consoleOperations, fileOperations,
    List.map_cons, List.map_nil, Operation.plain, Operation.checked, Operation.acting, textQuestion, textChange,
    textRelation, functionOf, functionOfDouble, functionOfTwo, questionOf, writing, onPath, pathPart]
  exact ⟨by decide +kernel, by decide +kernel, by decide +kernel, by decide +kernel, by simp⟩

variable {moduleName : String} {operations : List Operation} {op : Operation}

/-- An operation is found by its qualified name. -/
theorem operation?_qualified (hmodule : (moduleName, operations) ∈ modules) (hop : op ∈ operations) :
    operation? (qualified moduleName op.name) = some op := by
  -- An operation found in some module has both the name of the module and its own in common.
  have hsame : ∀ m ∈ modules, ∀ op' ∈ m.2, qualified m.1 op'.name = qualified moduleName op.name → op' = op := by
    intro m hm op' hop' hqualified
    obtain ⟨hmoduleName, hname⟩ :=
      qualified_inj (dot_notMem_moduleName m hm) (dot_notMem_moduleName _ hmodule) hqualified
    obtain rfl := List.inj_on_of_nodup_map nodup_moduleNames hm hmodule hmoduleName
    exact List.inj_on_of_nodup_map (nodup_operationNames _ hmodule) hop' hop hname
  refine findSome?_eq_some_of_forall hmodule ?_ fun m hm op' hfind => ?_
  · exact find?_eq_some_of_forall hop (by simp) fun op' hop' hname => hsame _ hmodule op' hop' (by simpa using hname)
  · obtain ⟨m, ops⟩ := m
    have hname := List.find?_some hfind
    exact hsame _ hm op' (List.mem_of_find?_eq_some hfind) (by simpa using hname)

/-- An operation is called by its qualified name. -/
theorem call_qualified (hmodule : (moduleName, operations) ∈ modules) (hop : op ∈ operations)
    (args : List Value) : call (qualified moduleName op.name) args = op.call args := by
  rw [call, operation?_qualified hmodule hop]

/-- The operation at a place of the library is called by the name for this place. -/
theorem call_of_getElem? {k l : Nat} {n : String} {s : Text}
    (hmodule : modules[k]? = some (moduleName, operations)) (hop : operations[l]? = some op)
    (hname : op.name = n) (hqualified : s = qualified moduleName n) (args : List Value) :
    call s args = op.call args := by
  rw [hqualified, ← hname]
  exact call_qualified (List.mem_of_getElem? hmodule) (List.mem_of_getElem? hop) args

end Primitives.Library
