import FacetedSearch.Json.Value
import FacetedSearch.Proofs.Sorted.Bindings

namespace FacetedSearch

namespace Json

variable {α : Type} {read : Json → Option α}

@[simp] theorem str?_str (s : String) : (str s).str? = some s := rfl

@[simp] theorem bool?_bool (b : Bool) : (bool b).bool? = some b := by rw [bool?]

@[simp] theorem natBelow?_nat {bound n : Nat} (inside : n < bound) : (nat n).natBelow? bound = some n :=
  if_pos inside

@[simp] theorem word32?_ofWord32 (w : UInt32) : (ofWord32 w).word32? = some w := by
  rw [word32?, ofWord32, natBelow?_nat w.toNat_lt, Option.map_some, UInt32.ofNat_toNat]

@[simp] theorem word64?_ofWord64 (w : UInt64) : (ofWord64 w).word64? = some w := by
  rw [word64?, ofWord64, natBelow?_nat w.toNat_lt, Option.map_some, UInt64.ofNat_toNat]

@[simp] theorem required_some (j : Json) : required read (some j) = read j := Option.bind_some j read

@[simp] theorem defaulted_some (default : α) (j : Json) : defaulted read default (some j) = read j := by rw [defaulted]

@[simp] theorem record?_obj {names : List String} {fields : List (String × Json)}
    (named : fields.map Prod.fst = names) (distinct : names.Nodup) :
    (obj fields).record? names = some (fields.map fun field => some field.2) := by
  subst named
  rw [record?, List.map_map]
  congr 1
  exact List.map_congr_left fun field member => lookup_of_mem distinct member

theorem list?_ofList {write : α → Json} {items : List α} (each : ∀ a ∈ items, read (write a) = some a) :
    list? read (ofList write items) = some items := by
  have inside : (items.map write).mapM read = some items := by
    induction items with
    | nil => rfl
    | cons a rest ih =>
      obtain ⟨first, others⟩ := List.forall_mem_cons.mp each
      rw [List.map_cons, List.mapM_cons, first, ih others]
      rfl
  exact inside

@[simp] theorem texts?_written (texts : List String) : list? str? (ofList str texts) = some texts :=
  list?_ofList fun s _ => str?_str s

theorem optional?_ofOption {write : α → Json} (a : Option α) (each : ∀ b, read (write b) = some b)
    (filled : ∀ b, write b ≠ null) : optional? read (ofOption write a) = some a := by
  cases a with
  | none => rfl
  | some b =>
    rw [ofOption, optional?, each b]
    · rfl
    · exact filled b

theorem defaulted_map {β : Type} {write : β → Json} {read : Json → Option (Option β)} {a : Option β}
    (each : ∀ b ∈ a, read (write b) = some (some b)) : defaulted read none (a.map write) = some a := by
  cases a with
  | none => rfl
  | some b => exact each b rfl

theorem mapM_eq_none {β γ : Type} {f : β → Option γ} {items : List β} :
    items.mapM f = none ↔ ∃ a ∈ items, f a = none := by
  induction items with
  | nil => exact iff_of_false nofun fun ⟨_, member, _⟩ => nomatch member
  | cons a rest ih =>
    rw [List.mapM_cons, List.exists_mem_cons_iff, ← ih]
    cases f a with
    | none => exact iff_of_true rfl (.inl rfl)
    | some b => cases rest.mapM f <;> simp

theorem entries?_of_written (write : α → Option Json) {entries : List (String × α)} {fields : List (String × Json)}
    (written : entries.mapM (fun binding => (write binding.2).map fun j => (binding.1, j)) = some fields)
    (each : ∀ binding ∈ entries, ∀ j, write binding.2 = some j → read j = some binding.2) :
    entries? read (obj fields) = some entries := by
  rw [entries?]
  induction entries generalizing fields with
  | nil =>
    obtain rfl := Option.some.inj written
    rfl
  | cons binding rest ih =>
    obtain ⟨first, others⟩ := List.forall_mem_cons.mp each
    simp only [List.mapM_cons, Option.bind_eq_bind, Option.bind_eq_some_iff, Option.map_eq_some_iff] at written
    obtain ⟨_, ⟨j, one, rfl⟩, rest', several, last⟩ := written
    obtain rfl := Option.some.inj last
    simp only [List.mapM_cons, first j one, ih several others]
    rfl

end Json

end FacetedSearch
