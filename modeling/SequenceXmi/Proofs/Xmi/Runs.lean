import SequenceXmi.Xmi.Exporter

/-! # Runs of an export

An export threads a supply of identifiers through three loops and may stop in any of them. `Ends`
says in one line what a run does: from how many drawn identifiers it starts, what it gives, and how
many are drawn when it ends.

Every loop takes numbers for its items in order, so that its outcome has a closed form, `allot`. A
loop that meets a failing item ends there, with what was drawn until then. -/

namespace SequenceXmi.Xmi

variable {α β : Type}

/-! ## Numbers along a list -/

/-- Takes numbers for the items of a list, in order: an item takes `cost` of them, and `place` says
what it becomes if the first of its numbers is the given one. -/
def allot (cost : α → Nat) (place : Nat → α → β) : Nat → List α → List β
  | _, [] => []
  | n, x :: xs => place n x :: allot cost place (n + cost x) xs

/-- How many numbers the items of a list take. -/
def total (cost : α → Nat) : List α → Nat
  | [] => 0
  | x :: xs => cost x + total cost xs

section Allot

variable (cost : α → Nat) (place : Nat → α → β)

@[simp] theorem allot_nil (n : Nat) : allot cost place n [] = [] := rfl

@[simp] theorem allot_cons (n : Nat) (x : α) (xs : List α) :
    allot cost place n (x :: xs) = place n x :: allot cost place (n + cost x) xs := rfl

@[simp] theorem total_nil : total cost ([] : List α) = 0 := rfl

@[simp] theorem total_cons (x : α) (xs : List α) :
    total cost (x :: xs) = cost x + total cost xs := rfl

/-- Placing the items and then changing what they became is placing them otherwise. -/
theorem map_allot {γ : Type} (g : β → γ) (n : Nat) (xs : List α) :
    (allot cost place n xs).map g = allot cost (fun k x => g (place k x)) n xs := by
  induction xs generalizing n with
  | nil => rfl
  | cons x xs ih => simp [ih]

/-- Where the numbers do not matter, items are placed one by one. -/
theorem allot_eq_map (g : α → β) (n : Nat) (xs : List α) :
    allot cost (fun _ x => g x) n xs = xs.map g := by
  induction xs generalizing n with
  | nil => rfl
  | cons x xs ih => simp [ih]

/-- What became of an item came from its number and the item. -/
theorem mem_allot {n : Nat} {xs : List α} {y : β} (h : y ∈ allot cost place n xs) :
    ∃ k, ∃ x ∈ xs, n ≤ k ∧ k + cost x ≤ n + total cost xs ∧ y = place k x := by
  induction xs generalizing n with
  | nil => simp at h
  | cons x xs ih =>
    rcases List.mem_cons.mp h with rfl | h
    · exact ⟨n, x, List.mem_cons_self, Nat.le_refl n, by simp, rfl⟩
    · obtain ⟨k, x', hx', hle, hk, rfl⟩ := ih h
      exact ⟨k, x', List.mem_cons_of_mem x hx', by omega, by simp; omega, rfl⟩

end Allot

section Comparison

variable {γ δ : Type}

/-- Where each item takes as many numbers, its first one can be computed. -/
theorem allot_eq_map_zipIdx (c : Nat) (place : Nat → α → γ) (n k : Nat) (xs : List α) :
    allot (fun _ => c) place (n + c * k) xs =
      (xs.zipIdx k).map fun p => place (n + c * p.2) p.1 := by
  induction xs generalizing k with
  | nil => rfl
  | cons x xs ih =>
    have hnext : n + c * k + c = n + c * (k + 1) := by rw [Nat.mul_succ, Nat.add_assoc]
    rw [allot_cons, List.zipIdx_cons, List.map_cons, hnext, ih]

theorem total_const (c : Nat) (xs : List α) : total (fun _ => c) xs = c * xs.length := by
  induction xs with
  | nil => rfl
  | cons x xs ih => rw [total_cons, ih, List.length_cons, Nat.mul_succ, Nat.add_comm]

/-- Two lists are placed alike if and only if their items are, one by one. What matters of an item
is said by `view` and `view'`. -/
theorem allot_eq_allot_iff {cost : α → Nat} {cost' : β → Nat} {place : Nat → α → γ}
    {place' : Nat → β → γ} {view : α → δ} {view' : β → δ} {xs : List α} {ys : List β}
    (hplace : ∀ n, ∀ x ∈ xs, ∀ y ∈ ys, place n x = place' n y ↔ view x = view' y)
    (hcost : ∀ x ∈ xs, ∀ y ∈ ys, view x = view' y → cost x = cost' y) (n : Nat) :
    allot cost place n xs = allot cost' place' n ys ↔ xs.map view = ys.map view' := by
  induction xs generalizing n ys with
  | nil => cases ys <;> simp
  | cons x xs ih =>
    cases ys with
    | nil => simp
    | cons y ys =>
      have hrest (k : Nat) := ih
        (fun n a ha b hb => hplace n a (List.mem_cons_of_mem x ha) b (List.mem_cons_of_mem y hb))
        (fun a ha b hb => hcost a (List.mem_cons_of_mem x ha) b (List.mem_cons_of_mem y hb)) k
      have hfirst := hplace n x List.mem_cons_self y List.mem_cons_self
      simp only [allot_cons, List.map_cons, List.cons.injEq, hfirst]
      -- The rest starts from the same number if the first items are alike.
      refine and_congr_right fun hview => ?_
      rw [hcost x List.mem_cons_self y List.mem_cons_self hview]
      exact hrest _

end Comparison

/-! ## How a run ends -/

/-- Started when `n` identifiers of the sequence `s` are drawn, the computation gives `result`,
and then `k` of them are drawn. -/
def Ends (s : Nat → String) (act : Export α) (n : Nat) (result : Except Unresolved α)
    (k : Nat) : Prop :=
  act.run.run ⟨s, n⟩ = (result, ⟨s, k⟩)

namespace Ends

variable {s : Nat → String} {n k l : Nat}

theorem pure (a : α) : Ends s (Pure.pure a) n (.ok a) n := rfl

theorem throw (u : Unresolved) : Ends s (MonadExcept.throw u : Export α) n (.error u) n := rfl

theorem draw : Ends s drawId n (.ok (s n)) (n + 1) := drawId_run _

/-- What comes after a result goes on with it. -/
theorem bind {act : Export α} {next : α → Export β} {a : α} {r : Except Unresolved β}
    (h : Ends s act n (.ok a) k) (hnext : Ends s (next a) k r l) :
    Ends s (act >>= next) n r l := by
  unfold Ends at h hnext ⊢
  simp only [ExceptT.run_bind, StateT.run_bind, h]
  exact hnext

/-- Nothing comes after a failure. -/
theorem bind_error {act : Export α} {next : α → Export β} {u : Unresolved}
    (h : Ends s act n (.error u) k) : Ends s (act >>= next) n (.error u) k := by
  unfold Ends at h ⊢
  simp only [ExceptT.run_bind, StateT.run_bind, h]
  rfl

/-! ### Loops -/

variable {f : α → Export β} {cost : α → Nat} {place : Nat → α → β}

/-- A loop in which no item fails takes the numbers of all its items. -/
theorem mapM {xs : List α}
    (h : ∀ x ∈ xs, ∀ n, Ends s (f x) n (.ok (place n x)) (n + cost x)) (n : Nat) :
    Ends s (xs.mapM f) n (.ok (allot cost place n xs)) (n + total cost xs) := by
  induction xs generalizing n with
  | nil => exact pure []
  | cons x xs ih =>
    have hhead := h x List.mem_cons_self n
    have htail := ih (fun y hy => h y (List.mem_cons_of_mem x hy)) (n + cost x)
    rw [List.mapM_cons, total_cons, ← Nat.add_assoc]
    exact bind hhead (bind htail (pure _))

/-- A loop ends at the first item that fails. -/
theorem mapM_error {xs : List α} (ys : List α) {x : α} {u : Unresolved} {c : Nat}
    (h : ∀ x ∈ xs, ∀ n, Ends s (f x) n (.ok (place n x)) (n + cost x))
    (hx : ∀ n, Ends s (f x) n (.error u) (n + c)) (n : Nat) :
    Ends s ((xs ++ x :: ys).mapM f) n (.error u) (n + total cost xs + c) := by
  -- The items before the failing one run as a loop of their own.
  rw [List.mapM_append]
  refine bind (mapM h n) (bind_error ?_)
  rw [List.mapM_cons]
  exact bind_error (hx _)

end Ends

end SequenceXmi.Xmi
