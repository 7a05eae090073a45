import McpGateway.Shared.Located

namespace McpGateway.Policy

open Shared

def isSensitiveKey (key : String) : Bool :=
  key != "" && (contains key "password" || contains key "secret" || contains key "token" || "key".toList.isSuffixOf key.toList)

def auditKey (key : String) : String := trimSpace (toLower key)

def Sensitive (key : String) : Prop := isSensitiveKey (auditKey key) = true

def redacted {A : Type} : Located A := .leaf (.string "[redacted]")

section

variable {A B : Type}

-- What the call makes gets an address of its own, named after the map or array it is made for.
mutual

def sanitizeValue (key : String) : Located A → Located (A ⊕ A)
  | .object address entries => if isSensitiveKey key then redacted else .object (.inr address) (sanitizeEntries entries)
  | .array address items => if isSensitiveKey key then redacted else .array (.inr address) (sanitizeItems key items)
  | .leaf atom => if isSensitiveKey key then redacted else .leaf atom

def sanitizeItems (key : String) : List (Located A) → List (Located (A ⊕ A))
  | [] => []
  | item :: items => sanitizeValue key item :: sanitizeItems key items

def sanitizeEntries : List (String × Located A) → List (String × Located (A ⊕ A))
  | [] => []
  | (key, value) :: entries => (key, sanitizeValue (auditKey key) value) :: sanitizeEntries entries

end

structure Arguments (A : Type) where
  address : A
  entries : List (String × Located A)

def Arguments.located (args : Arguments A) : Located A := .object args.address args.entries

def sanitizeForAudit (args : Arguments A) : Located (A ⊕ A) :=
  .object (.inr args.address) (sanitizeEntries args.entries)

theorem sanitizeItems_eq (key : String) (items : List (Located A)) :
    sanitizeItems key items = items.map (sanitizeValue key) := by
  induction items with
  | nil => rfl
  | cons item items ih => rw [sanitizeItems, ih, List.map_cons]

theorem sanitizeEntries_eq (entries : List (String × Located A)) :
    sanitizeEntries entries = entries.map fun entry => (entry.1, sanitizeValue (auditKey entry.1) entry.2) := by
  induction entries with
  | nil => rfl
  | cons entry entries ih => rw [sanitizeEntries, ih, List.map_cons]

def keyAt (key : String) : Place → String
  | .key name => auditKey name
  | .index _ => key

section

variable {key : String} (plain : isSensitiveKey key = false)

include plain

theorem child_sanitizeValue (value : Located A) (place : Place) :
    (sanitizeValue key value).child place = (value.child place).map (sanitizeValue (keyAt key place)) := by
  cases value with
  | leaf atom => cases place <;> simp [sanitizeValue, plain, Located.child]
  | array address items => cases place <;> simp [sanitizeValue, plain, Located.child, sanitizeItems_eq, keyAt]
  | object address entries =>
    cases place with
    | index position => simp [sanitizeValue, plain, Located.child]
    | key name =>
      simp only [sanitizeValue, plain, Bool.false_eq_true, if_false, Located.child, sanitizeEntries_eq, keyAt]
      induction entries with
      | nil => rfl
      | cons entry entries ih =>
        rw [List.map_cons, List.lookup_cons, List.lookup_cons]
        cases named : name == entry.1 with
        | true => rw [eq_of_beq named, Option.map_some]
        | false => exact ih

theorem head_sanitizeValue (left : Located A) (right : Located B) (same : left.erase.head = right.erase.head) :
    (sanitizeValue key left).erase.head = (sanitizeValue key right).erase.head := by
  have own {C : Type} (value : Located C) : (sanitizeValue key value).erase.head = value.erase.head := by
    cases value <;> simp [sanitizeValue, plain, Value.head, sanitizeItems_eq, sanitizeEntries_eq]
  rw [own, own, same]

theorem erase_sanitizeValue {value : Located A} (clear : value.erase.Inside (∀ name ∈ ·.keys, ¬ Sensitive name)) :
    (sanitizeValue key value).erase = value.erase := by
  induction value using Located.nested_induction generalizing key with
  | leaf atom => simp [sanitizeValue, plain]
  | array address items ih =>
    rw [Located.erase_array, Value.inside_array, List.forall_mem_map] at clear
    simpa [sanitizeValue, plain, sanitizeItems_eq] using fun item mem => ih item mem plain (clear.2 item mem)
  | object address entries ih =>
    rw [Located.erase_object, Value.inside_object, List.forall_mem_map] at clear
    have shown (entry : String × Located A) (mem : entry ∈ entries) : ¬ Sensitive entry.1 :=
      clear.1 entry.1 (by simpa [Value.keys] using ⟨entry.2, mem⟩)
    simp only [sanitizeValue, plain, Bool.false_eq_true, if_false, sanitizeEntries_eq, Located.erase_object, List.map_map]
    refine congrArg _ (List.map_congr_left fun entry mem => Prod.ext rfl ?_)
    exact ih entry mem (by simpa [Sensitive] using shown entry mem) (clear.2 entry mem)

end

theorem sanitizeValue_alike {key : String} (plain : isSensitiveKey key = false) {left : Located A} {right : Located B}
    (alike : Value.AlikeBut Sensitive left.erase right.erase) :
    Value.Alike (sanitizeValue key left).erase (sanitizeValue key right).erase := by
  intro path _
  induction path generalizing key left right with
  | nil => exact congrArg some (head_sanitizeValue plain left right alike.head)
  | cons place path ih =>
    simp only [Value.descend, Located.child_erase, child_sanitizeValue plain]
    by_cases hides : isSensitiveKey (keyAt key place) = true
    · -- both are redacted, or both are absent
      have present := (left.erase.isSome_child place).trans (alike.head ▸ (right.erase.isSome_child place).symm)
      have redacts {C : Type} (value : Located C) : sanitizeValue (keyAt key place) value = redacted := by
        cases value <;> simp [sanitizeValue, hides]
      rw [Located.child_erase, Located.child_erase] at present
      cases first : left.child place <;> cases second : right.child place <;> simp_all [redacted]
    · have below : Option.Rel _ (left.erase.child place) _ := alike.child (by
        rintro name sensitive rfl
        exact hides sensitive)
      rw [Located.child_erase, Located.child_erase] at below
      cases first : left.child place <;> cases second : right.child place <;> rw [first, second] at below <;> cases below
      · rfl
      · exact ih (by simpa using hides) ‹_› (by simp)

theorem sanitizeValue_made (key : String) (value : Located A) :
    ∀ address ∈ (sanitizeValue key value).addresses, address.isRight = true := by
  induction value using Located.nested_induction generalizing key with
  | leaf atom =>
    rw [sanitizeValue]
    split_ifs <;> simp [redacted]
  | array address items ih =>
    rw [sanitizeValue]
    split_ifs
    · simp [redacted]
    · simpa [sanitizeItems_eq] using fun address item mem => ih item mem key address
  | object address entries ih =>
    rw [sanitizeValue]
    split_ifs
    · simp [redacted]
    · simpa [sanitizeEntries_eq] using fun address name value mem => ih (name, value) mem (auditKey name) address

/-- What is logged does not depend on what stands under sensitive keys and is otherwise an equal copy; the
addresses it is written to are none of the arguments'. -/
theorem sanitizeForAudit_noninterfering [DecidableEq A] :
    (∀ (left : Arguments A) (right : Arguments B), Value.AlikeBut Sensitive left.located.erase right.located.erase →
      Value.Alike (sanitizeForAudit left).erase (sanitizeForAudit right).erase) ∧ ∀ args : Arguments A,
      (args.located.erase.Inside (∀ name ∈ ·.keys, ¬ Sensitive name) →
        (sanitizeForAudit args).erase = args.located.erase) ∧ ∀ written ∈ (sanitizeForAudit args).addresses, ∀ contents,
        (args.located.map .inl).write written contents = args.located.map .inl := by
  have plain : isSensitiveKey "" = false := by decide
  have whole {C : Type} (args : Arguments C) : sanitizeForAudit args = sanitizeValue "" args.located := by
    simp [sanitizeForAudit, Arguments.located, sanitizeValue, plain]
  simp only [whole]
  refine ⟨fun left right alike => sanitizeValue_alike plain alike, fun args => ⟨erase_sanitizeValue plain, ?_⟩⟩
  intro written mem contents
  have made := sanitizeValue_made "" args.located written mem
  refine Located.write_eq_self contents ?_
  rw [Located.addresses_map, List.mem_map]
  rintro ⟨address, -, rfl⟩
  cases made

end

def bearer (token : String) : Arguments Nat := ⟨0, [("user", .leaf (.string "a")), ("Token ", .leaf (.string token))]⟩

theorem token_indistinguishable : Value.AlikeBut Sensitive (bearer "x").located.erase (bearer "y").located.erase ∧
      Value.Alike (sanitizeForAudit (bearer "x")).erase (sanitizeForAudit (bearer "y")).erase := by
  have alike : Value.AlikeBut Sensitive (bearer "x").located.erase (bearer "y").located.erase := by
    intro path clear
    have hides := clear "Token " (by unfold Sensitive; decide +kernel)
    match path with
    | [] => simp [Value.descend, Value.head, bearer, Arguments.located]
    | .index _ :: _ => simp [Value.descend, Value.child, bearer, Arguments.located]
    | .key name :: path =>
      have other : (name == "Token ") = false := by
        rw [beq_eq_false_iff_ne]
        rintro rfl
        exact hides (List.mem_cons_self ..)
      simp [Value.descend, Value.child, bearer, Arguments.located, List.lookup_cons, other]
  exact ⟨alike, sanitizeForAudit_noninterfering.1 _ _ alike⟩

end McpGateway.Policy
