import McpGateway.Shared.GoMap

namespace McpGateway.Shared

-- An inverted index: every key lists the records posted under it, at most one per identifier,
-- and a key whose last record goes away goes away with it.

section

variable {R I : Type} [DecidableEq I] (ident : R → I)

def upsert : List R → R → List R
  | [], record => [record]
  | head :: tail, record =>
    if ident head = ident record then record :: tail else head :: upsert tail record

def discard (records : List R) (id : I) : List R :=
  records.filter fun record => ident record ≠ id

variable (records : List R) (record : R)

theorem upsert_ne_nil : upsert ident records record ≠ [] := by
  cases records with
  | nil => simp [upsert]
  | cons head tail =>
    unfold upsert
    split_ifs <;> simp

theorem map_upsert : (upsert ident records record).map ident =
      if ident record ∈ records.map ident then records.map ident else records.map ident ++ [ident record] := by
  induction records with
  | nil => simp [upsert]
  | cons head tail ih =>
    by_cases same : ident head = ident record
    · simp [upsert, same]
    · have other : ident record ≠ ident head := fun h => same h.symm
      rw [upsert, if_neg same, List.map_cons, ih]
      simp only [List.map_cons, List.mem_cons, other, false_or]
      split_ifs <;> simp

theorem nodup_upsert (distinct : (records.map ident).Nodup) : ((upsert ident records record).map ident).Nodup := by
  rw [map_upsert]
  split_ifs with present
  · exact distinct
  · rw [List.nodup_append]
    refine ⟨distinct, List.nodup_singleton _, ?_⟩
    intro id mem other single
    rw [List.mem_singleton] at single
    rintro rfl
    exact present (single ▸ mem)

theorem mem_upsert (x : R) (distinct : (records.map ident).Nodup) :
    x ∈ upsert ident records record ↔ x = record ∨ (x ∈ records ∧ ident x ≠ ident record) := by
  induction records with
  | nil => simp [upsert]
  | cons head tail ih =>
    rw [List.map_cons, List.nodup_cons] at distinct
    by_cases same : ident head = ident record
    · -- the replaced record is the only one that carries this identifier
      have others : ∀ y ∈ tail, ident y ≠ ident record := by
        intro y mem clash
        exact distinct.1 (List.mem_map.mpr ⟨y, mem, clash.trans same.symm⟩)
      rw [upsert, if_pos same, List.mem_cons]
      constructor
      · rintro (rfl | mem)
        · exact .inl rfl
        · exact .inr ⟨List.mem_cons_of_mem _ mem, others x mem⟩
      · rintro (rfl | ⟨mem, ne⟩)
        · exact .inl rfl
        · rcases List.mem_cons.mp mem with rfl | mem
          · exact absurd same ne
          · exact .inr mem
    · rw [upsert, if_neg same, List.mem_cons, ih distinct.2, List.mem_cons]
      constructor
      · rintro (rfl | rfl | ⟨mem, ne⟩)
        · exact .inr ⟨.inl rfl, same⟩
        · exact .inl rfl
        · exact .inr ⟨.inr mem, ne⟩
      · rintro (rfl | ⟨rfl | mem, ne⟩)
        · exact .inr (.inl rfl)
        · exact .inl rfl
        · exact .inr (.inr ⟨mem, ne⟩)

theorem mem_discard (id : I) (x : R) : x ∈ discard ident records id ↔ x ∈ records ∧ ident x ≠ id := by
  simp [discard]

theorem nodup_discard (id : I) (distinct : (records.map ident).Nodup) : ((discard ident records id).map ident).Nodup :=
  distinct.sublist (List.filter_sublist.map ident)

end

structure Postings (K R : Type) [DecidableEq K] {I : Type} [DecidableEq I] (ident : R → I) where
  entries : GoMap K (List R)
  populated : ∀ key records, entries.lookup key = some records → records ≠ []
  distinct : ∀ key records, entries.lookup key = some records → (records.map ident).Nodup

namespace Postings

variable {K R I : Type} [DecidableEq K] [DecidableEq I] {ident : R → I}

def empty : Postings K R ident where
  entries := ∅
  populated := by simp
  distinct := by simp

def bucket (postings : Postings K R ident) (key : K) : List R :=
  (postings.entries.lookup key).getD []

def keys (postings : Postings K R ident) : List K :=
  postings.entries.keys

theorem bucket_nodup (postings : Postings K R ident) (key : K) : ((postings.bucket key).map ident).Nodup := by
  cases found : postings.entries.lookup key with
  | none => simp [bucket, found]
  | some records => simpa [bucket, found] using postings.distinct key records found

theorem mem_keys (postings : Postings K R ident) (key : K) : key ∈ postings.keys ↔ postings.bucket key ≠ [] := by
  cases found : postings.entries.lookup key with
  | none =>
    have absent : key ∉ postings.entries := AList.lookup_eq_none.mp found
    simp [bucket, found, keys, ← AList.mem_keys, absent]
  | some records =>
    have present : key ∈ postings.entries := AList.lookup_isSome.mp (by simp [found])
    simp [bucket, found, keys, ← AList.mem_keys, present, postings.populated key records found]

-- One key at a time, as the source's loops over a record's capabilities do.
def post (postings : Postings K R ident) (key : K) (record : R) : Postings K R ident where
  entries := postings.entries.insert key (upsert ident (postings.bucket key) record)
  populated := by
    intro other records found
    rw [GoMap.lookup_insert_eq] at found
    split_ifs at found
    · cases found
      exact upsert_ne_nil ident _ record
    · exact postings.populated other records found
  distinct := by
    intro other records found
    rw [GoMap.lookup_insert_eq] at found
    split_ifs at found
    · cases found
      exact nodup_upsert ident _ record (postings.bucket_nodup key)
    · exact postings.distinct other records found

def postAll (postings : Postings K R ident) (keys : List K) (record : R) : Postings K R ident :=
  keys.foldl (fun postings key => postings.post key record) postings

def withdraw (postings : Postings K R ident) (id : I) : Postings K R ident where
  entries := postings.entries.filterMapValues fun records =>
    match discard ident records id with
    | [] => none
    | kept => some kept
  populated := by
    intro key records found
    rw [GoMap.lookup_filterMapValues, Option.bind_eq_some_iff] at found
    obtain ⟨before, _, found⟩ := found
    split at found
    · cases found
    next nonempty =>
      cases found
      exact nonempty
  distinct := by
    intro key records found
    rw [GoMap.lookup_filterMapValues, Option.bind_eq_some_iff] at found
    obtain ⟨before, present, found⟩ := found
    split at found
    · cases found
    · cases found
      exact nodup_discard ident before id (postings.distinct key before present)

@[simp] theorem bucket_empty (key : K) : (empty : Postings K R ident).bucket key = [] := by
  simp [bucket, empty]

theorem bucket_post (postings : Postings K R ident) (key other : K) (record : R) :
    (postings.post key record).bucket other =
      if other = key then upsert ident (postings.bucket key) record else postings.bucket other := by
  rw [bucket, post, GoMap.lookup_insert_eq]
  split_ifs <;> rfl

theorem mem_bucket_post (postings : Postings K R ident) (key other : K) (record x : R) :
    x ∈ (postings.post key record).bucket other ↔
      (other = key ∧ x = record) ∨ (x ∈ postings.bucket other ∧ ¬ (other = key ∧ ident x = ident record)) := by
  rw [bucket_post]
  by_cases same : other = key
  · subst same
    simp [mem_upsert ident _ record x (postings.bucket_nodup other)]
  · simp [same]

theorem mem_bucket_postAll (postings : Postings K R ident) (keys : List K) (other : K) (record x : R) :
    x ∈ (postings.postAll keys record).bucket other ↔
      (other ∈ keys ∧ x = record) ∨ (x ∈ postings.bucket other ∧ ¬ (other ∈ keys ∧ ident x = ident record)) := by
  induction keys generalizing postings with
  | nil => simp [postAll]
  | cons key keys ih =>
    change x ∈ ((postings.post key record).postAll keys record).bucket other ↔ _
    rw [ih, mem_bucket_post, List.mem_cons]
    have same : x = record → ident x = ident record := congrArg ident
    tauto

theorem bucket_withdraw (postings : Postings K R ident) (id : I) (key : K) :
    (postings.withdraw id).bucket key = discard ident (postings.bucket key) id := by
  rw [bucket, withdraw, GoMap.lookup_filterMapValues, bucket]
  cases found : postings.entries.lookup key with
  | none => rfl
  | some records =>
    rw [Option.bind_some, Option.getD_some]
    split
    next nothing => simp [nothing]
    · rfl

theorem mem_bucket_withdraw (postings : Postings K R ident) (id : I) (key : K) (x : R) :
    x ∈ (postings.withdraw id).bucket key ↔ x ∈ postings.bucket key ∧ ident x ≠ id := by
  rw [bucket_withdraw, mem_discard]

def Files (postings : Postings K R ident) (keysOf : R → List K) (listed : R → Prop) : Prop :=
  ∀ key record, record ∈ postings.bucket key ↔ listed record ∧ key ∈ keysOf record

variable {postings others : Postings K R ident} {keysOf : R → List K} {listed : R → Prop}

theorem files_empty (keysOf : R → List K) : (empty : Postings K R ident).Files keysOf fun _ => False := by
  simp [Files]

theorem Files.congr (files : postings.Files keysOf listed) {same : R → Prop}
    (iff : ∀ record, listed record ↔ same record) : postings.Files keysOf same := by
  intro key record
  rw [files key record, iff]

theorem Files.withdraw (files : postings.Files keysOf listed) (id : I) :
    (postings.withdraw id).Files keysOf fun record => listed record ∧ ident record ≠ id := by
  intro key record
  rw [mem_bucket_withdraw, files key record]
  tauto

theorem Files.postAll (files : postings.Files keysOf listed) (record : R)
    (covered : ∀ old, listed old → ident old = ident record → keysOf old ⊆ keysOf record) :
    (postings.postAll (keysOf record) record).Files keysOf
      fun other => other = record ∨ (listed other ∧ ident other ≠ ident record) := by
  intro key other
  rw [mem_bucket_postAll, files key other]
  constructor
  · rintro (⟨mem, rfl⟩ | ⟨⟨old, mem⟩, fresh⟩)
    · exact ⟨.inl rfl, mem⟩
    · exact ⟨.inr ⟨old, fun clash => fresh ⟨covered other old clash mem, clash⟩⟩, mem⟩
  · rintro ⟨rfl | ⟨old, ne⟩, mem⟩
    · exact .inl ⟨mem, rfl⟩
    · exact .inr ⟨⟨old, mem⟩, fun clash => ne clash.2⟩

theorem Files.unfiled (files : postings.Files keysOf listed) {record : R} (none : keysOf record = []) :
    postings.Files keysOf fun other => other = record ∨ listed other := by
  intro key other
  rw [files key other]
  by_cases same : other = record
  · simp [same, none]
  · simp [same]

theorem Files.view_perm (files : postings.Files keysOf listed) {same : R → Prop} (also : others.Files keysOf same)
    {look : R → R} (sameId : ∀ record, ident (look record) = ident record)
    (sameKeys : ∀ record, keysOf (look record) = keysOf record)
    (iff : ∀ seen, (∃ record, listed record ∧ look record = seen) ↔ ∃ record, same record ∧ look record = seen)
    (key : K) : ((postings.bucket key).map look).Perm ((others.bucket key).map look) := by
  have distinct (postings : Postings K R ident) : ((postings.bucket key).map look).Nodup := by
    apply List.Nodup.of_map ident
    have ids : (postings.bucket key).map (ident ∘ look) = (postings.bucket key).map ident :=
      List.map_congr_left fun record _ => sameId record
    rw [List.map_map, ids]
    exact postings.bucket_nodup key
  have mem_view {postings : Postings K R ident} {listed : R → Prop} (files : postings.Files keysOf listed) (seen : R) :
      seen ∈ (postings.bucket key).map look ↔ (∃ record, listed record ∧ look record = seen) ∧ key ∈ keysOf seen := by
    rw [List.mem_map]
    constructor
    · rintro ⟨record, mem, rfl⟩
      obtain ⟨held, posted⟩ := (files key record).mp mem
      exact ⟨⟨record, held, rfl⟩, by rwa [sameKeys]⟩
    · rintro ⟨⟨record, held, rfl⟩, posted⟩
      exact ⟨record, (files key record).mpr ⟨held, by rwa [sameKeys] at posted⟩, rfl⟩
  refine (List.perm_ext_iff_of_nodup (distinct _) (distinct _)).mpr fun seen => ?_
  rw [mem_view files, mem_view also, iff]

theorem mem_keys_iff_of_view {look : R → R} {key : K}
    (perm : ((postings.bucket key).map look).Perm ((others.bucket key).map look)) :
    key ∈ postings.keys ↔ key ∈ others.keys := by
  have length := perm.length_eq
  rw [List.length_map, List.length_map] at length
  rw [mem_keys, mem_keys, ne_eq, ne_eq, ← List.length_eq_zero_iff, ← List.length_eq_zero_iff, length]

def Posted (postings : Postings K R ident) (record : R) : Prop :=
  ∃ key, record ∈ postings.bucket key

theorem Files.of_posted (files : postings.Files keysOf listed) {record : R} (posted : postings.Posted record) :
    listed record := by
  obtain ⟨key, mem⟩ := posted
  exact ((files key record).mp mem).1

theorem posted_postAll {keys : List K} {record x : R} (posted : (postings.postAll keys record).Posted x) :
    x = record ∨ postings.Posted x := by
  obtain ⟨key, mem⟩ := posted
  rcases (mem_bucket_postAll _ _ _ _ _).mp mem with ⟨_, same⟩ | ⟨kept, _⟩
  · exact .inl same
  · exact .inr ⟨key, kept⟩

theorem posted_withdraw_iff (id : I) (x : R) : (postings.withdraw id).Posted x ↔ postings.Posted x ∧ ident x ≠ id := by
  simp only [Posted, mem_bucket_withdraw, exists_and_right]

theorem mem_ranged {order : List K} (range : order.Perm postings.keys) (record : R) :
    record ∈ order.flatMap postings.bucket ↔ postings.Posted record := by
  rw [List.mem_flatMap]
  constructor
  · rintro ⟨key, _, mem⟩
    exact ⟨key, mem⟩
  · rintro ⟨key, mem⟩
    have present : key ∈ postings.keys := (mem_keys postings key).mpr (List.ne_nil_of_mem mem)
    exact ⟨key, range.mem_iff.mpr present, mem⟩

theorem Posted.met_first {record : R} (posted : postings.Posted record) : ∃ order : List K, order.Perm postings.keys ∧
      (order.flatMap postings.bucket).find? (fun met => ident met = ident record) = some record := by
  obtain ⟨key, mem⟩ := posted
  have present : key ∈ postings.keys := (mem_keys postings key).mpr (List.ne_nil_of_mem mem)
  have alone : (postings.bucket key).find? (fun met => ident met = ident record) = some record := by
    cases found : (postings.bucket key).find? (fun met => ident met = ident record) with
    | none => simpa using List.find?_eq_none.mp found record mem
    | some met =>
      have same : ident met = ident record := by simpa using List.find?_some found
      rw [List.inj_on_of_nodup_map (postings.bucket_nodup key) (List.mem_of_find?_eq_some found) mem same]
  refine ⟨key :: postings.keys.erase key, (List.perm_cons_erase present).symm, ?_⟩
  simp [List.find?_append, alone]

end Postings

end McpGateway.Shared
