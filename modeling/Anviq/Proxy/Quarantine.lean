import Anviq.Proxy.Session

/-! # The quarantine snapshot

`quarantine.go`: the pairs of a server and a tool that the control plane had in quarantine when
the poller last reached it. A refresh swaps in a whole new map.
-/

namespace Proxy

/-- `Entry` identifies one quarantined (server, tool) pair. -/
structure Entry where
  server : String
  tool : String
deriving DecidableEq

/-- `Set`, the keys of the map its pointer leads to. -/
structure QuarantineSet where
  keys : List String := []

namespace QuarantineSet

/-- `Contains`. -/
def contains (set : QuarantineSet) (server tool : String) : Bool := key server tool ∈ set.keys

/-- `Replace`. -/
def replace (entries : List Entry) : QuarantineSet where
  keys := entries.map fun entry => key entry.server entry.tool

end QuarantineSet

/-- What stands before the first separator, and after it. -/
theorem append_cons_inj {α : Type} {separator : α} {front front' back back' : List α}
    (before : separator ∉ front) (before' : separator ∉ front')
    (same : front ++ separator :: back = front' ++ separator :: back') :
    front = front' ∧ back = back' := by
  induction front generalizing front' with
  | nil =>
      cases front' with
      | nil => exact ⟨rfl, (List.cons.inj same).2⟩
      | cons head rest =>
          rw [(List.cons.inj same).1] at before'
          exact absurd List.mem_cons_self before'
  | cons head rest ih =>
      cases front' with
      | nil =>
          rw [(List.cons.inj same).1] at before
          exact absurd List.mem_cons_self before
      | cons head' rest' =>
          rcases List.cons.inj same with ⟨rfl, tails⟩
          rcases ih (fun present => before (List.mem_cons_of_mem _ present))
            (fun present => before' (List.mem_cons_of_mem _ present)) tails with ⟨rfl, rfl⟩
          exact ⟨rfl, rfl⟩

/-- Keys of servers whose names have no NUL are as distinct as the pairs. -/
theorem key_inj {server tool server' tool' : String} (plain : '\x00' ∉ server.toList)
    (plain' : '\x00' ∉ server'.toList) (same : key server tool = key server' tool') :
    server = server' ∧ tool = tool' := by
  have lists := congrArg String.toList same
  simp only [key, String.toList_append, List.append_assoc] at lists
  rcases append_cons_inj plain plain' lists with ⟨front, back⟩
  exact ⟨String.ext front, String.ext back⟩

namespace QuarantineSet

theorem contains_replace {entries : List Entry} {server tool : String} :
    (replace entries).contains server tool = true ↔
      ∃ entry ∈ entries, key entry.server entry.tool = key server tool := by
  rw [contains, replace, decide_eq_true_iff, List.mem_map]

end QuarantineSet

end Proxy
