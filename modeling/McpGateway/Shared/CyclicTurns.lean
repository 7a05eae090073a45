import Mathlib.Data.Int.CardIntervalMod

namespace McpGateway.Shared

def Cyclic (size : Nat) (turns : List Nat) : Prop :=
  turns.IsChain fun turn next => next ≡ turn + 1 [MOD size]

instance (size : Nat) (turns : List Nat) : Decidable (Cyclic size turns) :=
  inferInstanceAs (Decidable (List.IsChain _ _))

variable {size : Nat}

theorem Cyclic.residues {first : Nat} {rest : List Nat} (cyclic : Cyclic size (first :: rest)) :
    (first :: rest).map (· % size) = (List.range (rest.length + 1)).map fun step => (first + step) % size := by
  induction rest generalizing first with
  | nil => rfl
  | cons next rest ih =>
    obtain ⟨follows, later⟩ := List.isChain_cons_cons.mp cyclic
    rw [List.map_cons, ih later, List.length_cons, List.range_succ_eq_map (n := rest.length + 1), List.map_cons,
      List.map_map]
    congr 1
    apply List.map_congr_left
    intro step _
    have shifted : next + step ≡ first + 1 + step [MOD size] := follows.add_right step
    rw [Nat.ModEq, Nat.add_assoc, Nat.add_comm 1 step] at shifted
    exact shifted

theorem count_residue (pos : 0 < size) {place : Nat} (within : place < size) (start steps : Nat) :
    ((List.range steps).map fun step => (start + step) % size).count place =
      ((start + steps) / size + if place < (start + steps) % size then 1 else 0) -
        (start / size + if place < start % size then 1 else 0) := by
  have total := Nat.count_add (fun turn => turn ≡ place [MOD size]) start steps
  rw [Nat.count_modEq_card _ pos, Nat.count_modEq_card _ pos, Nat.mod_eq_of_lt within] at total
  have counted : ((List.range steps).map fun step => (start + step) % size).count place =
      Nat.count (fun step => start + step ≡ place [MOD size]) steps := by
    rw [List.count, List.countP_map, Nat.count]
    apply List.countP_congr
    intro step _
    simp [Nat.ModEq, Nat.mod_eq_of_lt within]
  omega

theorem Cyclic.count_le {turns : List Nat} (cyclic : Cyclic size turns) {place other : Nat} (within : place < size)
    (otherWithin : other < size) : (turns.map (· % size)).count place ≤ (turns.map (· % size)).count other + 1 := by
  have pos : 0 < size := by omega
  cases turns with
  | nil => simp
  | cons first rest =>
    have grows : first / size ≤ (first + (rest.length + 1)) / size := Nat.div_le_div_right (by omega)
    have level : first / size = (first + (rest.length + 1)) / size →
        first % size ≤ (first + (rest.length + 1)) % size := by
      intro same
      have start := Nat.div_add_mod first size
      have finish := Nat.div_add_mod (first + (rest.length + 1)) size
      rw [← same] at finish
      omega
    rw [cyclic.residues, count_residue pos within, count_residue pos otherWithin]
    split_ifs <;> omega

end McpGateway.Shared
