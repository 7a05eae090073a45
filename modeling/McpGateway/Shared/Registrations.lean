import Mathlib.Data.List.Induction
import McpGateway.Shared.Postings

namespace McpGateway.Shared

section

variable {R I : Type} [DecidableEq I] {ident : R → I}

/-- One record for each identifier that has been registered: in the order of the first registrations, each as it was
registered last. -/
structure Standing (ident : R → I) (rows records : List R) : Prop where
  order : records.map ident = (rows.map ident).eraseDups
  latest : ∀ record ∈ records, ∃ before after, rows = before ++ record :: after ∧
    ∀ later ∈ after, ident later ≠ ident record

def collapse (ident : R → I) (rows : List R) : List R :=
  rows.foldl (upsert ident) []

variable (rows : List R)

theorem collapse_append (record : R) :
    collapse ident (rows ++ [record]) = upsert ident (collapse ident rows) record := by
  simp [collapse]

theorem collapse_nodup : ((collapse ident rows).map ident).Nodup := by
  induction rows using List.reverseRecOn with
  | nil => exact List.nodup_nil
  | append_singleton prior last ih =>
    rw [collapse_append]
    exact nodup_upsert ident _ last ih

theorem eraseDups_concat (names : List I) (name : I) :
    (names ++ [name]).eraseDups = if name ∈ names then names.eraseDups else names.eraseDups ++ [name] := by
  rw [List.eraseDups_append]
  by_cases present : name ∈ names
  · simp [List.removeAll, present]
  · simp [List.removeAll, present, List.eraseDups_cons]

theorem standing_collapse : Standing ident rows (collapse ident rows) := by
  induction rows using List.reverseRecOn with
  | nil => exact ⟨rfl, by simp [collapse]⟩
  | append_singleton prior last ih =>
    rw [collapse_append]
    constructor
    · rw [map_upsert, List.map_append, List.map_singleton, eraseDups_concat, ih.order]
      simp only [List.mem_eraseDups]
    · intro record mem
      rcases (mem_upsert ident _ last record (collapse_nodup prior)).mp mem with rfl | ⟨kept, ne⟩
      · exact ⟨prior, [], rfl, by simp⟩
      · obtain ⟨before, after, rfl, latest⟩ := ih.latest record kept
        refine ⟨before, after ++ [last], by simp, ?_⟩
        intro later memberAfter
        rcases List.mem_append.mp memberAfter with prior | final
        · exact latest later prior
        · rw [List.mem_singleton.mp final]
          exact ne.symm

theorem Standing.mem_ids {rows records : List R} (standing : Standing ident rows records) (id : I) :
    id ∈ records.map ident ↔ id ∈ rows.map ident := by
  rw [standing.order, List.mem_eraseDups]

theorem upsert_upsert (records : List R) (record : R) :
    upsert ident (upsert ident records record) record = upsert ident records record := by
  induction records with
  | nil => simp [upsert]
  | cons head tail ih =>
    by_cases same : ident head = ident record
    · simp [upsert, same]
    · simp [upsert, same, ih]

theorem discard_cons (head : R) (tail : List R) (id : I) : discard ident (head :: tail) id =
      if ident head = id then discard ident tail id else head :: discard ident tail id := by
  by_cases gone : ident head = id <;> simp [discard, gone]

theorem discard_upsert (records : List R) (record : R) (id : I) : discard ident (upsert ident records record) id =
      if ident record = id then discard ident records id else upsert ident (discard ident records id) record := by
  induction records with
  | nil =>
    rw [upsert, discard_cons]
    rfl
  | cons head tail ih =>
    rw [discard_cons]
    by_cases same : ident head = ident record
    · rw [upsert, if_pos same, discard_cons, same]
      split_ifs with gone
      · rfl
      · rw [upsert, if_pos same]
    · rw [upsert, if_neg same, discard_cons, ih]
      split_ifs with kept gone
      · rfl
      · rfl
      · rfl
      · rw [upsert, if_neg same]

theorem discard_collapse (id : I) :
    discard ident (collapse ident rows) id = collapse ident (discard ident rows id) := by
  induction rows using List.reverseRecOn with
  | nil => rfl
  | append_singleton prior last ih =>
    rw [collapse_append, discard_upsert, ih]
    split_ifs with gone
    · simp [discard, gone]
    · rw [← collapse_append]
      simp [discard, gone]

end

namespace Postings

variable {K R I : Type} [DecidableEq K] [DecidableEq I] {ident : R → I}

theorem bucket_postAll (postings : Postings K R ident) (keys : List K) (record : R) (key : K) :
    (postings.postAll keys record).bucket key =
      if key ∈ keys then upsert ident (postings.bucket key) record else postings.bucket key := by
  induction keys generalizing postings with
  | nil => simp [postAll]
  | cons first rest ih =>
    change ((postings.post first record).postAll rest record).bucket key = _
    rw [ih, bucket_post]
    by_cases same : key = first
    · subst same
      simp [upsert_upsert]
    · simp [same]

end Postings

end McpGateway.Shared
