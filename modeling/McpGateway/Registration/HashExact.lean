import McpGateway.Registration.CapabilityHash
import McpGateway.Shared.JsonPrint

namespace McpGateway

namespace Shared

theorem utf8Bytes_injective : Function.Injective utf8Bytes := by
  intro left right same
  have bytes : left.toList.flatMap String.utf8EncodeChar = right.toList.flatMap String.utf8EncodeChar := by
    refine List.map_injective_iff.mpr (fun _ _ => UInt8.toNat_inj.mp) ?_
    simpa [utf8Bytes, List.map_flatMap] using same
  have encoded : left.toList.utf8Encode = right.toList.utf8Encode := by simp [List.utf8Encode, bytes]
  rw [String.utf8Encode_toList, String.utf8Encode_toList] at encoded
  exact String.toByteArray_inj.mp encoded

theorem hexRune_injective {left right : Nat} (small : left < 16) (other : right < 16)
    (same : hexRune left = hexRune right) : left = right := by
  have all : ∀ left < 16, ∀ right < 16, hexRune left = hexRune right → left = right := by decide
  exact all left small right other same

theorem hexEncode_injective {left right : List Nat} (small : ∀ byte ∈ left, byte < 256)
    (other : ∀ byte ∈ right, byte < 256) (same : hexEncode left = hexEncode right) : left = right := by
  have runes := String.ofList_injective same
  clear same
  induction left generalizing right with
  | nil => cases right <;> simp_all
  | cons byte left ih =>
    cases right with
    | nil => simp at runes
    | cons byte' right =>
      simp only [List.forall_mem_cons] at small other
      simp only [List.flatMap_cons, List.cons_append, List.nil_append, List.cons.injEq] at runes
      have high := hexRune_injective (by omega) (by omega) runes.1
      have low := hexRune_injective (by omega) (by omega) runes.2.1
      rw [ih small.2 other.2 runes.2.2]
      congr 1
      omega

namespace Json

def ofStrings (names : List String) : Json :=
  if names.isEmpty then .null else .array (names.map .string)

theorem ofStrings_injective : Function.Injective ofStrings := by
  intro left right same
  cases left <;> cases right <;> simp_all [ofStrings, List.map_inj_right]

theorem print_ofStrings (names : List String) : print (ofStrings names) = (marshalStrings names).toList := by
  have items : ∀ names : List String,
      printItems (names.map .string) = [','].intercalate (names.map fun name => (marshalString name).toList) := by
    intro names
    induction names with
    | nil => rfl
    | cons name rest ih =>
      cases rest with
      | nil => simp [printItems, print, marshalString]
      | cons next rest => simpa [printItems, print, marshalString, List.intercalate] using ih
  cases names with
  | nil => rfl
  | cons name rest =>
    have printed := items (name :: rest)
    simpa [ofStrings, print, marshalStrings, Function.comp_def] using printed

theorem plain_ofStrings (names : List String) : (ofStrings names).Printable ∧ (ofStrings names).nesting ≤ 1 := by
  have items : ∀ names : List String, PrintableItems (names.map .string) ∧ nestingItems (names.map .string) = 0 := by
    intro names
    induction names with
    | nil => simp [PrintableItems, nestingItems]
    | cons name rest ih => simp [PrintableItems, Printable, nestingItems, nesting, ih]
  cases names with
  | nil => simp [ofStrings, Printable, nesting]
  | cons name rest => simpa [ofStrings, Printable, nesting] using items (name :: rest)

end Json

end Shared

namespace Registration

open Shared

def capabilityJson (capability : Capability) : Json :=
  .object [("tools", .ofStrings capability.tools), ("resources", .ofStrings capability.resources),
    ("prompts", .ofStrings capability.prompts)]

theorem parse_marshalCapability (capability : Capability) :
    Json.parse (marshalCapability capability) = some (capabilityJson capability) := by
  have printed : marshalCapability capability = String.ofList (Json.print (capabilityJson capability)) := by
    rw [← String.toList_inj]
    simp [marshalCapability, capabilityJson, Json.print, Json.printMembers, Json.print_ofStrings, marshalRune]
  have plain := Json.plain_ofStrings
  rw [printed]
  refine Json.parse_print ?_ ?_
  · simp [capabilityJson, Json.Printable, Json.PrintableMembers, plain]
  · have depth : (capabilityJson capability).nesting ≤ 2 := by
      simp [capabilityJson, Json.nesting, Json.nestingMembers, plain]
    exact depth.trans (by decide)

theorem marshalCapability_injective : Function.Injective marshalCapability := by
  intro left right same
  have read := parse_marshalCapability left
  rw [same, parse_marshalCapability right] at read
  simp only [capabilityJson, Option.some.injEq, Json.object.injEq, List.cons.injEq, Prod.mk.injEq, true_and, and_true,
    Json.ofStrings_injective.eq_iff] at read
  cases left
  cases right
  simp_all

-- The arrays behind string slices, by their place in memory, and a declaration whose slices have arrays there.
structure CapabilitySlices where
  tools : Nat
  resources : Nat
  prompts : Nat

def readSlices (arrays : List (List String)) (slices : CapabilitySlices) : Capability :=
  ⟨arrays.getD slices.tools [], arrays.getD slices.resources [], arrays.getD slices.prompts []⟩

-- append([]string(nil), ...) takes a new array.
def copySlices (arrays : List (List String)) (slices : CapabilitySlices) : List (List String) × CapabilitySlices :=
  let read := readSlices arrays slices
  (arrays ++ [read.tools, read.resources, read.prompts], ⟨arrays.length, arrays.length + 1, arrays.length + 2⟩)

def sortSlice (arrays : List (List String)) (place : Nat) : List (List String) :=
  arrays.set place (sortStrings (arrays.getD place []))

def hashSlices (sum : List Nat → List Nat) (arrays : List (List String)) (slices : CapabilitySlices) :
    String × List (List String) :=
  let normalized := (copySlices arrays slices).2
  let sorted := sortSlice (sortSlice (sortSlice (copySlices arrays slices).1 normalized.tools) normalized.resources)
    normalized.prompts
  (hexEncode (sum (utf8Bytes (marshalCapability (readSlices sorted normalized)))), sorted)

def hashBy (sum : List Nat → List Nat) (capability : Capability) : String :=
  hexEncode (sum (utf8Bytes (marshalCapability
    ⟨sortStrings capability.tools, sortStrings capability.resources, sortStrings capability.prompts⟩)))

theorem hashCapabilities_eq_hashBy : hashCapabilities = hashBy Sha256.sum := rfl

theorem hashSlices_eq (sum : List Nat → List Nat) (arrays : List (List String)) (slices : CapabilitySlices) :
    (hashSlices sum arrays slices).1 = hashBy sum (readSlices arrays slices) ∧
      arrays <+: (hashSlices sum arrays slices).2 := by
  have sorted : (hashSlices sum arrays slices).2 = arrays ++ [sortStrings (readSlices arrays slices).tools,
      sortStrings (readSlices arrays slices).resources, sortStrings (readSlices arrays slices).prompts] := by
    simp [hashSlices, copySlices, sortSlice, List.set_append_right]
  refine ⟨?_, sorted ▸ List.prefix_append _ _⟩
  change hexEncode (sum (utf8Bytes (marshalCapability (readSlices (hashSlices sum arrays slices).2 _)))) = _
  rw [sorted]
  simp [hashBy, copySlices, readSlices]

structure CollisionFree (sum : List Nat → List Nat) : Prop where
  bytes : ∀ input, (∀ byte ∈ input, byte < 256) → ∀ byte ∈ sum input, byte < 256
  injective : ∀ left right, (∀ byte ∈ left, byte < 256) → (∀ byte ∈ right, byte < 256) → sum left = sum right → left = right

theorem perm_of_sortStrings {left right : List String} (same : sortStrings left = sortStrings right) : left.Perm right :=
  (List.perm_insertionSort _ left).symm.trans ((List.Perm.of_eq same).trans (List.perm_insertionSort _ right))

/-- With a digest free of collisions in SHA-256's place, the hash tells declarations apart exactly as multisets, and
the arrays of the argument stay as they are. -/
theorem capability_hash_exact {sum : List Nat → List Nat} (free : CollisionFree sum) (arrays : List (List String))
    (left right : CapabilitySlices) : ((hashSlices sum arrays left).1 = (hashSlices sum arrays right).1 ↔
      SameCapabilities (readSlices arrays left) (readSlices arrays right)) ∧ arrays <+: (hashSlices sum arrays left).2 := by
  refine ⟨?_, (hashSlices_eq sum arrays left).2⟩
  rw [(hashSlices_eq sum arrays left).1, (hashSlices_eq sum arrays right).1]
  constructor
  · intro same
    have digests := hexEncode_injective (free.bytes _ (utf8Bytes_lt _)) (free.bytes _ (utf8Bytes_lt _)) same
    have payloads := free.injective _ _ (utf8Bytes_lt _) (utf8Bytes_lt _) digests
    have sorted := marshalCapability_injective (utf8Bytes_injective payloads)
    simp only [Capability.mk.injEq] at sorted
    exact ⟨perm_of_sortStrings sorted.1, perm_of_sortStrings sorted.2.1, perm_of_sortStrings sorted.2.2⟩
  · rintro ⟨tools, resources, prompts⟩
    rw [hashBy, sortStrings_perm tools, sortStrings_perm resources, sortStrings_perm prompts, hashBy]

theorem reordered_tools_hash_alike :
    let arrays := [["b", "a"], [], ["a", "b"]]
    (hashSlices id arrays ⟨0, 1, 1⟩).1 = (hashSlices id arrays ⟨2, 1, 1⟩).1 ∧
      arrays <+: (hashSlices id arrays ⟨0, 1, 1⟩).2 := by
  have exact := capability_hash_exact ⟨fun _ small => small, fun _ _ _ _ same => same⟩ [["b", "a"], [], ["a", "b"]]
    ⟨0, 1, 1⟩ ⟨2, 1, 1⟩
  exact ⟨exact.1.mpr ⟨by decide, by decide, by decide⟩, exact.2⟩

end Registration

end McpGateway
