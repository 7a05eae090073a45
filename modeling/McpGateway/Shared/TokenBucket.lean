import Mathlib.Algebra.Order.Field.Basic
import Mathlib.Tactic.Linarith
import Mathlib.Tactic.Ring

namespace McpGateway.Shared

/-- A bucket that fills at a steady rate up to its burst; one that was never used is full. -/
structure TokenBucket (K : Type) where
  limit : K
  burst : K
  tokens : K
  last : Option K

namespace TokenBucket

variable {K : Type}

def full (limit burst : K) : TokenBucket K := ⟨limit, burst, burst, none⟩

section

variable [Field K] [LinearOrder K]

def available (bucket : TokenBucket K) (now : K) : K :=
  match bucket.last with
  | none => bucket.burst
  | some last => min bucket.burst (bucket.tokens + bucket.limit * max (now - last) 0)

def take (bucket : TokenBucket K) (now : K) : TokenBucket K × Bool :=
  if 1 ≤ bucket.available now then
    ({ bucket with tokens := bucket.available now - 1, last := some now }, true)
  else (bucket, false)

def deficit (bucket : TokenBucket K) (now : K) : K := bucket.burst - bucket.available now

structure Sound (bucket : TokenBucket K) (now : K) : Prop where
  limit : 0 ≤ bucket.limit
  burst : 0 ≤ bucket.burst
  tokens : 0 ≤ bucket.tokens
  used : ∀ last ∈ bucket.last, last ≤ now

variable {bucket left right : TokenBucket K} {now next : K}

theorem available_le_burst : bucket.available now ≤ bucket.burst := by
  unfold available
  split
  · exact le_refl _
  · exact min_le_left _ _

theorem take_cases (bucket : TokenBucket K) (now : K) : (1 ≤ bucket.available now ∧
      bucket.take now = ({ bucket with tokens := bucket.available now - 1, last := some now }, true)) ∨
    (¬ 1 ≤ bucket.available now ∧ bucket.take now = (bucket, false)) := by
  by_cases room : 1 ≤ bucket.available now
  · exact .inl ⟨room, by rw [take, if_pos room]⟩
  · exact .inr ⟨room, by rw [take, if_neg room]⟩

@[simp] theorem take_limit : (bucket.take now).1.limit = bucket.limit := by
  obtain ⟨-, taken⟩ | ⟨-, taken⟩ := bucket.take_cases now <;> rw [taken]

@[simp] theorem take_burst : (bucket.take now).1.burst = bucket.burst := by
  obtain ⟨-, taken⟩ | ⟨-, taken⟩ := bucket.take_cases now <;> rw [taken]

theorem sound_full {limit burst : K} (rate : 0 ≤ limit) (size : 0 ≤ burst) : (full limit burst).Sound now :=
  ⟨rate, size, size, by simp [full]⟩

theorem Sound.later (sound : bucket.Sound now) (passed : now ≤ next) : bucket.Sound next :=
  { sound with used := fun last found => (sound.used last found).trans passed }

/-- Nothing that happens from now on tells the two buckets apart. -/
structure Agree (left right : TokenBucket K) (now : K) : Prop where
  leftSound : left.Sound now
  rightSound : right.Sound now
  limit : left.limit = right.limit
  burst : left.burst = right.burst
  available : left.available now = right.available now

theorem Agree.take_allowed (agree : Agree left right now) : (left.take now).2 = (right.take now).2 := by
  simp [TokenBucket.take, agree.available, apply_ite Prod.snd]

theorem Agree.trans {middle : TokenBucket K} (first : Agree left middle now) (second : Agree middle right now) :
    Agree left right now :=
  ⟨first.leftSound, second.rightSound, first.limit.trans second.limit, first.burst.trans second.burst,
    first.available.trans second.available⟩

theorem Sound.agree_full (sound : bucket.Sound now) (refilled : bucket.burst ≤ bucket.available now) :
    Agree (full bucket.limit bucket.burst) bucket now :=
  ⟨sound_full sound.limit sound.burst, sound, rfl, rfl, le_antisymm refilled available_le_burst⟩

end

variable [Field K] [LinearOrder K] [IsStrictOrderedRing K] {bucket left right : TokenBucket K} {now next : K}

theorem Sound.take (sound : bucket.Sound now) : (bucket.take now).1.Sound now := by
  obtain ⟨room, taken⟩ | ⟨-, taken⟩ := bucket.take_cases now
  · rw [taken]
    exact ⟨sound.limit, sound.burst, sub_nonneg.mpr room, by simp⟩
  · rw [taken]
    exact sound

theorem Sound.available_nonneg (sound : bucket.Sound now) : 0 ≤ bucket.available now := by
  unfold available
  split
  · exact sound.burst
  · exact le_min sound.burst (add_nonneg sound.tokens (mul_nonneg sound.limit (le_max_right _ _)))

theorem Sound.available_later (sound : bucket.Sound now) (passed : now ≤ next) :
    bucket.available next = min bucket.burst (bucket.available now + bucket.limit * (next - now)) := by
  have grown : 0 ≤ bucket.limit * (next - now) := mul_nonneg sound.limit (sub_nonneg.mpr passed)
  unfold available
  cases found : bucket.last with
  | none => simp [grown]
  | some last =>
    have before : last ≤ now := sound.used last found
    have whole : bucket.limit * (next - last) = bucket.limit * (now - last) + bucket.limit * (next - now) := by ring
    simp only [max_eq_left (sub_nonneg.mpr before), max_eq_left (sub_nonneg.mpr (before.trans passed))]
    rw [whole, ← add_assoc, ← min_add_add_right, ← min_assoc, min_eq_left (le_add_of_nonneg_right grown)]

theorem available_take :
    (bucket.take now).1.available now = bucket.available now - if (bucket.take now).2 then 1 else 0 := by
  obtain ⟨room, taken⟩ | ⟨-, taken⟩ := bucket.take_cases now
  · have capped : bucket.available now ≤ bucket.burst := available_le_burst
    have less : bucket.available now - 1 ≤ bucket.burst := by linarith
    rw [taken]
    simpa [available] using less
  · rw [taken]
    simp

theorem Agree.later (agree : Agree left right now) (passed : now ≤ next) : Agree left right next := by
  refine ⟨agree.leftSound.later passed, agree.rightSound.later passed, agree.limit, agree.burst, ?_⟩
  rw [agree.leftSound.available_later passed, agree.rightSound.available_later passed, agree.limit, agree.burst,
    agree.available]

theorem Agree.take (agree : Agree left right now) : Agree (left.take now).1 (right.take now).1 now := by
  refine ⟨agree.leftSound.take, agree.rightSound.take, ?_, ?_, ?_⟩
  · simp [agree.limit]
  · simp [agree.burst]
  · rw [available_take, available_take, agree.take_allowed, agree.available]

theorem deficit_nonneg : 0 ≤ bucket.deficit now := sub_nonneg.mpr available_le_burst

omit [IsStrictOrderedRing K] in
theorem deficit_full {limit burst : K} : (full limit burst).deficit now = 0 := sub_self burst

theorem deficit_take : (bucket.take now).1.deficit now = bucket.deficit now + if (bucket.take now).2 then 1 else 0 := by
  rw [deficit, deficit, available_take, take_burst]
  ring

structure Within (bucket : TokenBucket K) (limit burst now : K) : Prop where
  sound : bucket.Sound now
  limit : bucket.limit ≤ limit
  burst : bucket.burst ≤ burst

section

variable {limit burst : K}

omit [IsStrictOrderedRing K] in
theorem within_full (rate : 0 ≤ limit) (size : 0 ≤ burst) : (full limit burst).Within limit burst now :=
  ⟨sound_full rate size, le_refl _, le_refl _⟩

omit [IsStrictOrderedRing K] in
theorem Within.later (bounded : bucket.Within limit burst now) (passed : now ≤ next) : bucket.Within limit burst next :=
  { bounded with sound := bounded.sound.later passed }

theorem Within.take (bounded : bucket.Within limit burst now) : (bucket.take now).1.Within limit burst now :=
  ⟨bounded.sound.take, take_limit.le.trans bounded.limit, take_burst.le.trans bounded.burst⟩

theorem Within.deficit_le (bounded : bucket.Within limit burst now) : bucket.deficit now ≤ burst :=
  (sub_le_self _ bounded.sound.available_nonneg).trans bounded.burst

theorem Within.deficit_later (bounded : bucket.Within limit burst now) (passed : now ≤ next) :
    bucket.deficit now ≤ bucket.deficit next + limit * (next - now) := by
  have grown : bucket.available next ≤ bucket.available now + bucket.limit * (next - now) := by
    rw [bounded.sound.available_later passed]
    exact min_le_right _ _
  have faster := mul_le_mul_of_nonneg_right bounded.limit (sub_nonneg.mpr passed)
  unfold deficit
  linarith

end

end TokenBucket

end McpGateway.Shared
