import Mathlib

namespace FacetedSearch

inductive Matched {ε α β : Type} (related : α → β → Prop) : Except ε α → Except ε β → Prop where
  | error (e : ε) : Matched related (.error e) (.error e)
  | ok {a : α} {b : β} (pair : related a b) : Matched related (.ok a) (.ok b)

namespace Matched

variable {ε α β γ δ : Type} {related : α → β → Prop} {later : γ → δ → Prop}

theorem bind {x : Except ε α} {y : Except ε β} {f : α → Except ε γ} {g : β → Except ε δ}
    (matched : Matched related x y) (next : ∀ a b, related a b → Matched later (f a) (g b)) :
    Matched later (x >>= f) (y >>= g) := by
  cases matched with
  | error e => exact .error e
  | ok pair => exact next _ _ pair

theorem bind_right {x : Except ε α} {y : Except ε β} {later : α → δ → Prop} {g : β → Except ε δ}
    (matched : Matched related x y) (next : ∀ a b, related a b → Matched later (.ok a) (g b)) :
    Matched later x (y >>= g) := by
  cases matched with
  | error e => exact .error e
  | ok pair => exact next _ _ pair

theorem map {x : Except ε α} {y : Except ε β} {f : α → γ} {g : β → δ} (matched : Matched related x y)
    (next : ∀ a b, related a b → later (f a) (g b)) : Matched later (x.map f) (y.map g) := by
  cases matched with
  | error e => exact .error e
  | ok pair => exact .ok (next _ _ pair)

theorem imp {weaker : α → β → Prop} {x : Except ε α} {y : Except ε β} (matched : Matched related x y)
    (follows : ∀ a b, related a b → weaker a b) : Matched weaker x y := by
  cases matched with
  | error e => exact .error e
  | ok pair => exact .ok (follows _ _ pair)

theorem error_left {e : ε} {y : Except ε β} (matched : Matched related (.error e) y) : y = .error e := by
  cases matched
  rfl

theorem ok_left {a : α} {y : Except ε β} (matched : Matched related (.ok a) y) : ∃ b, y = .ok b ∧ related a b := by
  cases matched with
  | ok pair => exact ⟨_, rfl, pair⟩

theorem exists_iff {P : α → Prop} {Q : β → Prop} {x : Except ε α} {y : Except ε β} (matched : Matched related x y)
    (same : ∀ a b, related a b → (P a ↔ Q b)) : (∃ a, x = .ok a ∧ P a) ↔ ∃ b, y = .ok b ∧ Q b := by
  cases matched with
  | error e => exact iff_of_false (fun ⟨_, equal, _⟩ => nomatch equal) fun ⟨_, equal, _⟩ => nomatch equal
  | ok pair => simp [same _ _ pair]

theorem mapM {xs : List γ} {ys : List δ} {f : γ → Except ε α} {g : δ → Except ε β}
    (each : List.Forall₂ (fun x y => Matched related (f x) (g y)) xs ys) :
    Matched (List.Forall₂ related) (xs.mapM f) (ys.mapM g) := by
  induction each with
  | nil => exact .ok .nil
  | cons first _ ih =>
    rw [List.mapM_cons, List.mapM_cons]
    exact first.bind fun a b pair => ih.bind fun as bs pairs => .ok (.cons pair pairs)

end Matched

theorem bind_ok_exact {ε α β : Type} {x : Except ε α} {f : α → Except ε β} {b : β} :
    x >>= f = .ok b ↔ ∃ a, x = .ok a ∧ f a = .ok b := by
  cases x with
  | error e => exact iff_of_false nofun fun ⟨_, equal, _⟩ => nomatch equal
  | ok a => exact ⟨fun equal => ⟨a, rfl, equal⟩, fun ⟨_, same, equal⟩ => Except.ok.inj same ▸ equal⟩

theorem mapM_ok_exact {ε α β : Type} {f : α → Except ε β} {xs : List α} {ys : List β} :
    xs.mapM f = .ok ys ↔ List.Forall₂ (fun x y => f x = .ok y) xs ys := by
  induction xs generalizing ys with
  | nil =>
    rw [List.mapM_nil, List.forall₂_nil_left_iff]
    exact ⟨fun equal => (Except.ok.inj equal).symm, fun equal => equal ▸ rfl⟩
  | cons x rest ih =>
    rw [List.mapM_cons, List.forall₂_cons_left_iff]
    cases first : f x with
    | error e => simp [bind, Except.bind]
    | ok y =>
      cases tail : rest.mapM f with
      | error e =>
        have none : ∀ ys, ¬ List.Forall₂ (fun x y => f x = .ok y) rest ys := fun ys each => by
          have got := ih.mpr each
          rw [tail] at got
          cases got
        simp [bind, Except.bind, none]
      | ok others =>
        rw [tail] at ih
        simp only [bind, Except.bind, pure, Except.pure, Except.ok.injEq] at ih ⊢
        constructor
        · rintro rfl
          exact ⟨y, others, rfl, ih.mp rfl, rfl⟩
        · intro parts
          obtain ⟨y', others', rfl, each, rfl⟩ := parts
          rw [ih.mpr each]

theorem mapM_checked {ε α β : Type} (check : α → Except ε Unit) (make : α → β) (xs : List α) :
    (xs.mapM fun x => (check x).map fun _ => make x) = (xs.forM check).map fun _ => xs.map make := by
  induction xs with
  | nil => rfl
  | cons x rest ih =>
    have step : (x :: rest).forM check = (check x >>= fun _ => rest.forM check) := rfl
    rw [List.mapM_cons, ih, step]
    cases check x with
    | error e => rfl
    | ok _ => cases rest.forM check <;> rfl

theorem mapM_congr_on {ε α β : Type} {f g : α → Except ε β} {xs : List α} (same : ∀ x ∈ xs, f x = g x) :
    xs.mapM f = xs.mapM g := by
  induction xs with
  | nil => rfl
  | cons x rest ih =>
    rw [List.mapM_cons, List.mapM_cons, same x List.mem_cons_self, ih fun y member => same y (List.mem_cons_of_mem _ member)]

theorem forM_ok_exact {ε α : Type} {check : α → Except ε Unit} {xs : List α} :
    xs.forM check = .ok () ↔ ∀ x ∈ xs, check x = .ok () := by
  induction xs with
  | nil => exact iff_of_true rfl nofun
  | cons x rest ih =>
    have step : (x :: rest).forM check = (check x >>= fun _ => rest.forM check) := rfl
    rw [step, bind_ok_exact, List.forall_mem_cons, ← ih]
    constructor
    · intro ⟨_, first, later⟩
      exact ⟨first, later⟩
    · intro ⟨first, later⟩
      exact ⟨(), first, later⟩

theorem exists_bind_ok {ε α β : Type} {x : Except ε α} {f : α → Except ε β} :
    (∃ b, x >>= f = .ok b) ↔ ∃ a, x = .ok a ∧ ∃ b, f a = .ok b := by
  simp only [bind_ok_exact]
  constructor
  · intro ⟨b, a, first, later⟩
    exact ⟨a, first, b, later⟩
  · intro ⟨a, first, b, later⟩
    exact ⟨b, a, first, later⟩

theorem exists_mapM_ok {ε α β : Type} {f : α → Except ε β} {xs : List α} :
    (∃ ys, xs.mapM f = .ok ys) ↔ ∀ x ∈ xs, ∃ y, f x = .ok y := by
  induction xs with
  | nil => exact iff_of_true ⟨[], rfl⟩ nofun
  | cons x rest ih =>
    rw [List.mapM_cons, List.forall_mem_cons, ← ih, exists_bind_ok]
    constructor
    · intro ⟨y, first, later⟩
      obtain ⟨ys, tail, _⟩ := exists_bind_ok.mp later
      exact ⟨⟨y, first⟩, ys, tail⟩
    · intro ⟨⟨y, first⟩, ys, tail⟩
      exact ⟨y, first, exists_bind_ok.mpr ⟨ys, tail, _, rfl⟩⟩

-- A computation that stops at the first of these faults, and ends well if there
-- are none.
inductive Reports {ε α : Type} : Except ε α → List ε → Prop where
  | fault (e : ε) (others : List ε) : Reports (.error e) (e :: others)
  | clean (a : α) : Reports (.ok a) []

namespace Reports

variable {ε α β : Type} {x : Except ε α} {faults : List ε}

theorem error_iff (reports : Reports x faults) {e : ε} : x = .error e ↔ faults.head? = some e := by
  cases reports with
  | fault first others => rw [Except.error.injEq, List.head?_cons, Option.some.injEq]
  | clean a => exact iff_of_false nofun nofun

theorem ok_iff (reports : Reports x faults) : (∃ a, x = .ok a) ↔ faults = [] := by
  cases reports with
  | fault first others => exact iff_of_false nofun nofun
  | clean a => exact iff_of_true ⟨a, rfl⟩ rfl

theorem of_head {others : List ε} (reports : Reports x faults) (same : faults.head? = others.head?) : Reports x others := by
  cases reports with
  | clean a =>
    rw [List.head?_eq_none_iff.mp same.symm]
    exact .clean a
  | fault e later =>
    obtain ⟨rest, rfl⟩ := List.head?_eq_some_iff.mp same.symm
    exact .fault e rest

theorem map (reports : Reports x faults) (f : α → β) : Reports (x.map f) faults := by
  cases reports with
  | fault e others => exact .fault e others
  | clean a => exact .clean (f a)

theorem bind {f : α → Except ε β} {later : List ε} (reports : Reports x faults)
    (next : ∀ a, x = .ok a → Reports (f a) later) : Reports (x >>= f) (faults ++ later) := by
  cases reports with
  | fault e others => exact .fault e (others ++ later)
  | clean a => exact next a rfl

theorem forM {check : α → Except ε Unit} {found : α → List ε} {xs : List α}
    (each : ∀ x ∈ xs, Reports (check x) (found x)) : Reports (xs.forM check) (xs.flatMap found) := by
  induction xs with
  | nil => exact .clean ()
  | cons x rest ih =>
    obtain ⟨first, later⟩ := List.forall_mem_cons.mp each
    exact first.bind fun _ _ => ih later

theorem mapM {f : α → Except ε β} {found : α → List ε} {xs : List α}
    (each : ∀ x ∈ xs, Reports (f x) (found x)) : Reports (xs.mapM f) (xs.flatMap found) := by
  induction xs with
  | nil => exact .clean []
  | cons x rest ih =>
    obtain ⟨first, later⟩ := List.forall_mem_cons.mp each
    rw [List.mapM_cons]
    exact first.bind fun y _ => (ih later).map (y :: ·)

end Reports

section Related

variable {α β : Type} {related : α → β → Prop} {xs : List α} {ys : List β}

theorem exists_of_related {y : β} (pairs : List.Forall₂ related xs ys) (member : y ∈ ys) : ∃ x ∈ xs, related x y := by
  induction pairs with
  | nil => cases member
  | cons first _ ih =>
    rcases List.mem_cons.mp member with rfl | later
    · exact ⟨_, List.mem_cons_self, first⟩
    · obtain ⟨x, inside, pair⟩ := ih later
      exact ⟨x, List.mem_cons_of_mem _ inside, pair⟩

theorem getElem?_of_related {slot : Nat} {y : β} (pairs : List.Forall₂ related xs ys) (found : ys[slot]? = some y) :
    ∃ x, xs[slot]? = some x ∧ related x y := by
  induction pairs generalizing slot with
  | nil => cases found
  | cons first _ ih =>
    cases slot with
    | zero => exact ⟨_, rfl, Option.some.inj found ▸ first⟩
    | succ slot => exact ih found

theorem map_eq_of_related {γ : Type} {f : α → γ} {g : β → γ} (pairs : List.Forall₂ related xs ys)
    (same : ∀ x y, related x y → f x = g y) : xs.map f = ys.map g := by
  induction pairs with
  | nil => rfl
  | cons first _ ih => rw [List.map_cons, List.map_cons, same _ _ first, ih]

variable {P : α → Prop} {Q : β → Prop}

theorem forall_iff_of_related (pairs : List.Forall₂ related xs ys)
    (same : ∀ x ∈ xs, ∀ y, related x y → (P x ↔ Q y)) : (∀ x ∈ xs, P x) ↔ ∀ y ∈ ys, Q y := by
  induction pairs with
  | nil => simp
  | cons first rest ih =>
    rw [List.forall_mem_cons, List.forall_mem_cons, same _ List.mem_cons_self _ first,
      ih fun x member => same x (List.mem_cons_of_mem _ member)]

theorem exists_iff_of_related (pairs : List.Forall₂ related xs ys)
    (same : ∀ x ∈ xs, ∀ y, related x y → (P x ↔ Q y)) : (∃ x ∈ xs, P x) ↔ ∃ y ∈ ys, Q y := by
  induction pairs with
  | nil => simp
  | cons first rest ih =>
    rw [List.exists_mem_cons_iff, List.exists_mem_cons_iff, same _ List.mem_cons_self _ first,
      ih fun x member => same x (List.mem_cons_of_mem _ member)]

end Related

end FacetedSearch
