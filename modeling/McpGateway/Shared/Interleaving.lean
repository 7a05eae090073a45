import McpGateway.Shared.Runs

namespace McpGateway.Shared

structure Pool (Memory Process : Type) where
  memory : Memory
  processes : List Process

structure Turn (Input : Type) where
  position : Nat
  input : Input

namespace Pool

variable {Memory Process Input : Type} (advance : Input → Memory → Process → Memory × Process)

def turn (pool : Pool Memory Process) (turn : Turn Input) : Pool Memory Process :=
  match pool.processes[turn.position]? with
  | none => pool
  | some process =>
    ⟨(advance turn.input pool.memory process).1,
      pool.processes.set turn.position (advance turn.input pool.memory process).2⟩

variable {advance} {pool : Pool Memory Process} {next : Turn Input}

theorem turn_none (idle : pool.processes[next.position]? = none) : pool.turn advance next = pool := by
  rw [turn, idle]

theorem turn_some {process : Process} (moves : pool.processes[next.position]? = some process) :
    pool.turn advance next = ⟨(advance next.input pool.memory process).1,
      pool.processes.set next.position (advance next.input pool.memory process).2⟩ := by
  rw [turn, moves]

theorem turn_count [BEq Process] [LawfulBEq Process] (kind : Process) (level : Memory → Nat)
    (counted : pool.processes.count kind = level pool.memory) (moves : ∀ process ∈ pool.processes[next.position]?,
      level (advance next.input pool.memory process).1 + (if process == kind then 1 else 0) =
        level pool.memory + if (advance next.input pool.memory process).2 == kind then 1 else 0) :
    (pool.turn advance next).processes.count kind = level (pool.turn advance next).memory := by
  cases moving : pool.processes[next.position]? with
  | none => rwa [turn_none moving]
  | some process =>
    have moved := moves process moving
    obtain ⟨inside, same⟩ := List.getElem?_eq_some_iff.mp moving
    have least : (if process == kind then 1 else 0) ≤ pool.processes.count kind := by
      split_ifs with own
      · exact List.count_pos_iff.mpr (eq_of_beq own ▸ List.mem_of_getElem? moving)
      · exact Nat.zero_le _
    rw [turn_some moving, List.count_set inside, same]
    dsimp only
    omega

theorem turn_asserted (assertion : Memory → Process → Prop)
    (asserted : ∀ process ∈ pool.processes, assertion pool.memory process)
    (own : ∀ process ∈ pool.processes[next.position]?, assertion pool.memory process →
      assertion (advance next.input pool.memory process).1 (advance next.input pool.memory process).2)
    (others : ∀ process ∈ pool.processes[next.position]?, assertion pool.memory process →
      ∀ other ∈ pool.processes, assertion pool.memory other →
        assertion (advance next.input pool.memory process).1 other) :
    ∀ process ∈ (pool.turn advance next).processes, assertion (pool.turn advance next).memory process := by
  cases moving : pool.processes[next.position]? with
  | none => rwa [turn_none moving]
  | some process =>
    have current := asserted process (List.mem_of_getElem? moving)
    rw [turn_some moving]
    intro other mem
    rcases List.mem_or_eq_of_mem_set mem with kept | rfl
    · exact others process moving current other kept (asserted other kept)
    · exact own process moving current

def Apart (related : Process → Process → Prop) (pool : Pool Memory Process) : Prop :=
  ∀ (i j : Nat) (left right : Process), i ≠ j → pool.processes[i]? = some left → pool.processes[j]? = some right →
    related left right

theorem turn_apart {related : Process → Process → Prop}
    (symmetric : ∀ left right, related left right → related right left) (apart : pool.Apart related)
    (moves : ∀ process ∈ pool.processes[next.position]?, ∀ other ∈ pool.processes, related process other →
      related (advance next.input pool.memory process).2 other) : (pool.turn advance next).Apart related := by
  cases moving : pool.processes[next.position]? with
  | none => rwa [turn_none moving]
  | some process =>
    rw [turn_some moving]
    have moved (j : Nat) (other : Process) (ne : next.position ≠ j) (found : pool.processes[j]? = some other) :
        related (advance next.input pool.memory process).2 other :=
      moves process moving other (List.mem_of_getElem? found) (apart _ _ _ _ ne moving found)
    intro i j left right ne first second
    simp only [List.getElem?_set] at first second
    split_ifs at first second with atFirst inside atSecond
    · exact absurd (atFirst.symm.trans atSecond) ne
    · cases first
      exact moved j right (by omega) second
    · cases second
      exact symmetric _ _ (moved i left (by omega) first)
    · exact apart i j left right ne first second

end Pool

end McpGateway.Shared
