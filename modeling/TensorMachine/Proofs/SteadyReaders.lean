import TensorMachine.Proofs.ReaderLaws

/-!
# Readers on bytes that go on

What a reader answers when more bytes follow is told by its answer without them. A value stays, and
so does a refusal of the bytes that were read. A shortfall stays until the missing bytes are there,
and what is missed after that is missed further on. Such readers are steady. No reader looks at how
many bytes are left: each one is put together from `Reader.take`, so that it is enough to know this
of `take` and of the ways in which readers are put together.
-/

namespace TensorMachine

namespace Cursor

/-- The cursor with more bytes behind those that are left. -/
def extend (c : Cursor) (more : Bytes) : Cursor := ⟨c.offset, c.rest ++ more⟩

/-- The offset behind the last byte. -/
def stop (c : Cursor) : Nat := c.offset + c.rest.length

end Cursor

/-- Errors of which some are shortfalls. -/
class Shortfalls (ε : Type) where
  shortfall? : ε → Option Shortfall
  /-- The error that is left when some of the missing bytes are there. -/
  lessen : Nat → ε → ε
  lessen_of_none : ∀ {e : ε}, shortfall? e = none → ∀ n, lessen n e = e

open Shortfalls

instance : Shortfalls Shortfall where
  shortfall? := some
  lessen n s := ⟨s.offset, s.needed - n⟩
  lessen_of_none h := nomatch h

instance : Shortfalls TypeFault where
  shortfall?
    | .shortfall s => some s
    | .unknownElement _ => none
  lessen n
    | .shortfall s => .shortfall ⟨s.offset, s.needed - n⟩
    | .unknownElement code => .unknownElement code
  lessen_of_none {e} h _ := by cases e <;> first | rfl | cases h

instance : Shortfalls DecodeError where
  shortfall?
    | .truncated _ offset needed => some ⟨offset, needed⟩
    | _ => none
  lessen n
    | .truncated record offset needed => .truncated record offset (needed - n)
    | e => e
  lessen_of_none {e} h _ := by cases e <;> first | rfl | cases h

namespace Reader

variable {ε δ α β : Type}

lemma bind_eq_error_iff {r : Reader ε α} {g : α → Reader ε β} {c : Cursor} {e : ε} :
    (r >>= g) c = .error e ↔ r c = .error e ∨ ∃ a c₁, r c = .ok (a, c₁) ∧ g a c₁ = .error e := by
  rw [bind_apply]
  cases r c with
  | error e => simp
  | ok result =>
    obtain ⟨a, c₁⟩ := result
    simp

lemma withError_eq_error_iff {r : Reader ε α} {f : ε → δ} {c : Cursor} {e' : δ} :
    r.withError f c = .error e' ↔ ∃ e, r c = .error e ∧ f e = e' := by
  rw [withError]
  cases r c <;> simp [Except.mapError]

lemma take_eq_ok_iff {n : Nat} {c c' : Cursor} {window : Bytes} :
    take n c = .ok (window, c') ↔
      n ≤ c.rest.length ∧ c.rest.take n = window ∧ ⟨c.offset + n, c.rest.drop n⟩ = c' := by
  simp only [take, List.length_take]
  by_cases h : n ≤ c.rest.length
  · simp [h]
  · simp [h, Nat.min_eq_right (Nat.le_of_not_le h), Nat.lt_of_not_le h]

lemma take_eq_error_iff {n : Nat} {c : Cursor} {s : Shortfall} :
    take n c = .error s ↔ c.rest.length < n ∧ ⟨c.offset, n - c.rest.length⟩ = s := by
  simp only [take, List.length_take]
  by_cases h : n ≤ c.rest.length
  · simp [Nat.min_eq_left h, Nat.not_lt_of_le h]
  · simp [Nat.min_eq_right (Nat.le_of_not_le h), Nat.lt_of_not_le h]

lemma times_succ_eq_bind (n : Nat) (r : Reader ε α) :
    times (n + 1) r = r >>= fun a => times n r >>= fun as => pure (a :: as) := by
  funext c
  rw [times_succ, bind_apply]
  cases r c with
  | error e => rfl
  | ok result =>
    simp only
    rw [bind_apply]
    cases times n r result.2 <;> rfl

lemma map_eq_bind (f : α → β) (r : Reader ε α) : f <$> r = r >>= fun a => pure (f a) := rfl

/-!
### The errors of a reader
-/

/-- Whatever error the reader fails with has the property. -/
def Raises (P : ε → Prop) (r : Reader ε α) : Prop := ∀ c e, r c = .error e → P e

section Raises

variable {P : ε → Prop}

lemma Raises.mono {r : Reader ε α} {Q : ε → Prop} (h : r.Raises P) (hPQ : ∀ e, P e → Q e) :
    r.Raises Q := fun c e he => hPQ e (h c e he)

lemma raises_pure (a : α) : Raises P (pure a : Reader ε α) := by
  intro c e h
  cases h

lemma Raises.bind {r : Reader ε α} {g : α → Reader ε β} (hr : r.Raises P)
    (hg : ∀ a, (g a).Raises P) : (r >>= g).Raises P := by
  intro c e h
  rcases bind_eq_error_iff.mp h with hfirst | ⟨a, c₁, -, hrest⟩
  · exact hr c e hfirst
  · exact hg a c₁ e hrest

lemma raises_withError {r : Reader ε α} {f : ε → δ} {P : δ → Prop}
    (h : r.Raises fun e => P (f e)) : (r.withError f).Raises P := by
  intro c e' he
  obtain ⟨e, hread, rfl⟩ := withError_eq_error_iff.mp he
  exact h c e hread

lemma raises_within {r : Reader Shortfall α} {record : Option Nat} {P : DecodeError → Prop}
    (h : ∀ s, P (.ofShortfall record s)) : (within record r).Raises P :=
  raises_withError fun _ s _ => h s

lemma raises_ensure {condition : Prop} [Decidable condition] {e : ε} (h : P e) :
    (ensure condition e).Raises P := by
  intro c e' he
  unfold ensure at he
  split at he <;> cases he
  exact h

lemma raises_ofOption {value? : Option α} {e : ε} (h : P e) : (ofOption value? e).Raises P := by
  intro c e' he
  unfold ofOption at he
  split at he <;> cases he
  exact h

lemma raises_ofExcept {answer : Except ε α} (h : ∀ e, answer = .error e → P e) :
    (ofExcept answer).Raises P := by
  intro c e he
  unfold ofExcept at he
  split at he <;> cases he
  exact h _ rfl

lemma Raises.times {r : Reader ε α} (h : r.Raises P) (n : Nat) : (times n r).Raises P := by
  induction n with
  | zero => exact raises_pure []
  | succ n ih =>
    rw [times_succ_eq_bind]
    exact h.bind fun a => ih.bind fun as => raises_pure (a :: as)

end Raises

/-!
### Steady readers
-/

variable [Shortfalls ε] [Shortfalls δ]

/-- The reader has come past a place: it stands behind it, or what it misses lies behind it. -/
def Past (place : Nat) : Except ε (α × Cursor) → Prop
  | .ok (_, c) => place < c.offset
  | .error e => ∀ s, shortfall? e = some s → place < s.offset

/-- More bytes change the answers of the reader in the expected way only. -/
structure Steady (r : Reader ε α) : Prop where
  advances : ∀ {c a c'}, r c = .ok (a, c') → c.offset ≤ c'.offset ∧ c'.stop = c.stop
  ok : ∀ {c a c'}, r c = .ok (a, c') → ∀ more, r (c.extend more) = .ok (a, c'.extend more)
  misses : ∀ {c e s}, r c = .error e → shortfall? e = some s →
    0 < s.needed ∧ c.offset ≤ s.offset ∧ s.offset ≤ c.stop
  error : ∀ {c e more}, r c = .error e →
    (∀ s, shortfall? e = some s → more.length < s.needed) →
      r (c.extend more) = .error (lessen more.length e)
  filled : ∀ {c e s more}, r c = .error e → shortfall? e = some s → s.needed ≤ more.length →
    Past s.offset (r (c.extend more))

/-- A reader that starts behind a place stays behind it. -/
lemma Steady.past {r : Reader ε α} (h : r.Steady) {place : Nat} {c : Cursor}
    (hplace : place < c.offset) : Past place (r c) := by
  cases hread : r c with
  | ok result => exact Nat.lt_of_lt_of_le hplace (h.advances hread).1
  | error e =>
    intro s hs
    exact Nat.lt_of_lt_of_le hplace (h.misses hread hs).2.1

/-- A reader that leaves the cursor where it is and only refuses. -/
lemma steady_of_refusal {r : Reader ε α} (answer : Except ε α)
    (hr : ∀ c, r c = answer.map fun a => (a, c))
    (hrefusal : ∀ e, answer = .error e → shortfall? e = none) : r.Steady := by
  have hok : ∀ {c a c'}, r c = .ok (a, c') → answer = .ok a ∧ c' = c := by
    intro c a c' h
    rw [hr] at h
    cases answer <;> cases h
    exact ⟨rfl, rfl⟩
  have herror : ∀ {c e}, r c = .error e → answer = .error e := by
    intro c e h
    rw [hr] at h
    cases answer <;> cases h
    rfl
  have hnone : ∀ {c e s}, r c = .error e → shortfall? e ≠ some s := by
    intro c e s h hs
    rw [hrefusal e (herror h)] at hs
    cases hs
  constructor
  case advances =>
    intro c a c' h
    obtain ⟨-, rfl⟩ := hok h
    exact ⟨Nat.le_refl _, rfl⟩
  case ok =>
    intro c a c' h more
    obtain ⟨ha, rfl⟩ := hok h
    rw [hr, ha]
    rfl
  case misses =>
    intro c e s h hs
    exact absurd hs (hnone h)
  case error =>
    intro c e more h _
    have he := herror h
    rw [hr, he, lessen_of_none (hrefusal e he)]
    rfl
  case filled =>
    intro c e s more h hs
    exact absurd hs (hnone h)

lemma steady_pure (a : α) : Steady (pure a : Reader ε α) :=
  steady_of_refusal (.ok a) (fun _ => rfl) fun _ h => nomatch h

lemma steady_ensure {condition : Prop} [Decidable condition] {e : ε} (h : shortfall? e = none) :
    (ensure condition e).Steady := by
  by_cases hcondition : condition
  · refine steady_of_refusal (.ok ()) (fun c => ?_) fun _ h => nomatch h
    rw [ensure, if_pos hcondition]
    rfl
  · refine steady_of_refusal (.error e) (fun c => ?_) fun _ he => ?_
    · rw [ensure, if_neg hcondition]
      rfl
    · cases he
      exact h

lemma steady_ofExcept {answer : Except ε α} (h : ∀ e, answer = .error e → shortfall? e = none) :
    (ofExcept answer).Steady :=
  steady_of_refusal answer (fun _ => by cases answer <;> rfl) h

lemma steady_ofOption {value? : Option α} {e : ε} (h : shortfall? e = none) :
    (ofOption value? e).Steady := by
  cases value? with
  | some a => exact steady_pure a
  | none =>
    refine steady_of_refusal (.error e) (fun _ => rfl) fun _ he => ?_
    cases he
    exact h

lemma steady_take (n : Nat) : (take n).Steady := by
  have hlength : ∀ (c : Cursor) more, (c.extend more).rest.length = c.rest.length + more.length :=
    fun c more => List.length_append
  constructor
  case advances =>
    intro c window c' h
    obtain ⟨hn, -, rfl⟩ := take_eq_ok_iff.mp h
    simp only [Cursor.stop, List.length_drop]
    omega
  case ok =>
    intro c window c' h more
    obtain ⟨hn, rfl, rfl⟩ := take_eq_ok_iff.mp h
    refine take_eq_ok_iff.mpr ⟨by rw [hlength]; omega, ?_, ?_⟩
    · exact List.take_append_of_le_length hn
    · simp only [Cursor.extend, List.drop_append_of_le_length hn]
  case misses =>
    intro c e s h hs
    obtain ⟨hn, rfl⟩ := take_eq_error_iff.mp h
    cases hs
    simp only [Cursor.stop]
    omega
  case error =>
    intro c e more h hmore
    obtain ⟨hn, rfl⟩ := take_eq_error_iff.mp h
    have hfew : more.length < n - c.rest.length := hmore _ rfl
    refine take_eq_error_iff.mpr ⟨by rw [hlength]; omega, ?_⟩
    rw [hlength, Nat.sub_add_eq]
    rfl
  case filled =>
    intro c e s more h hs hmore
    obtain ⟨hn, rfl⟩ := take_eq_error_iff.mp h
    cases hs
    simp only at hmore
    rw [take_eq_ok_iff.mpr ⟨by rw [hlength]; omega, rfl, rfl⟩]
    change c.offset < c.offset + n
    omega

lemma Steady.bind {r : Reader ε α} {g : α → Reader ε β} (hr : r.Steady)
    (hg : ∀ a, (g a).Steady) : (r >>= g).Steady := by
  constructor
  case advances =>
    intro c b c' h
    obtain ⟨a, c₁, hfirst, hrest⟩ := bind_eq_ok_iff.mp h
    obtain ⟨hle, hstop⟩ := hr.advances hfirst
    obtain ⟨hle', hstop'⟩ := (hg a).advances hrest
    exact ⟨Nat.le_trans hle hle', hstop'.trans hstop⟩
  case ok =>
    intro c b c' h more
    obtain ⟨a, c₁, hfirst, hrest⟩ := bind_eq_ok_iff.mp h
    exact bind_eq_ok_iff.mpr ⟨a, _, hr.ok hfirst more, (hg a).ok hrest more⟩
  case misses =>
    intro c e s h hs
    rcases bind_eq_error_iff.mp h with hfirst | ⟨a, c₁, hfirst, hrest⟩
    · exact hr.misses hfirst hs
    · obtain ⟨hle, hstop⟩ := hr.advances hfirst
      obtain ⟨hneeded, hfrom, hto⟩ := (hg a).misses hrest hs
      exact ⟨hneeded, Nat.le_trans hle hfrom, hstop ▸ hto⟩
  case error =>
    intro c e more h hmore
    apply bind_eq_error_iff.mpr
    rcases bind_eq_error_iff.mp h with hfirst | ⟨a, c₁, hfirst, hrest⟩
    · exact .inl (hr.error hfirst hmore)
    · exact .inr ⟨a, _, hr.ok hfirst more, (hg a).error hrest hmore⟩
  case filled =>
    intro c e s more h hs hmore
    rw [bind_apply]
    rcases bind_eq_error_iff.mp h with hfirst | ⟨a, c₁, hfirst, hrest⟩
    · have hpast := hr.filled hfirst hs hmore
      cases hread : r (c.extend more) with
      | error e' =>
        rw [hread] at hpast
        exact hpast
      | ok result =>
        rw [hread] at hpast
        exact (hg result.1).past hpast
    · rw [hr.ok hfirst more]
      exact (hg a).filled hrest hs hmore

lemma Steady.map {r : Reader ε α} (h : r.Steady) (f : α → β) : (f <$> r).Steady := by
  rw [map_eq_bind]
  exact h.bind fun a => steady_pure (f a)

lemma Steady.times {r : Reader ε α} (h : r.Steady) (n : Nat) : (times n r).Steady := by
  induction n with
  | zero => exact steady_pure []
  | succ n ih =>
    rw [times_succ_eq_bind]
    exact h.bind fun a => ih.bind fun as => steady_pure (a :: as)

/-- Other names for the errors of a steady reader do no harm if the shortfalls stay. -/
lemma Steady.withError {r : Reader ε α} (h : r.Steady) {f : ε → δ}
    (hshortfall : ∀ e, shortfall? (f e) = shortfall? e)
    (hlessen : ∀ n e, lessen n (f e) = f (lessen n e)) : (r.withError f).Steady := by
  constructor
  case advances =>
    intro c a c' hread
    exact h.advances (withError_eq_ok_iff.mp hread)
  case ok =>
    intro c a c' hread more
    exact withError_eq_ok_iff.mpr (h.ok (withError_eq_ok_iff.mp hread) more)
  case misses =>
    intro c e' s hread hs
    obtain ⟨e, he, rfl⟩ := withError_eq_error_iff.mp hread
    exact h.misses he (hshortfall e ▸ hs)
  case error =>
    intro c e' more hread hmore
    obtain ⟨e, he, rfl⟩ := withError_eq_error_iff.mp hread
    rw [Reader.withError, h.error he fun s hs => hmore s ((hshortfall e).trans hs), hlessen]
    rfl
  case filled =>
    intro c e' s more hread hs hmore
    obtain ⟨e, he, rfl⟩ := withError_eq_error_iff.mp hread
    have hpast := h.filled he (hshortfall e ▸ hs) hmore
    rw [Reader.withError]
    cases hagain : r (c.extend more) with
    | ok result =>
      rw [hagain] at hpast
      exact hpast
    | error e'' =>
      rw [hagain] at hpast
      intro s' hs'
      exact hpast s' (hshortfall e'' ▸ hs')

lemma Steady.within {r : Reader Shortfall α} (h : r.Steady) (record : Option Nat) :
    (within record r).Steady := h.withError (fun _ => rfl) fun _ _ => rfl

lemma steady_u8 : u8.Steady := (steady_take 1).map _

lemma steady_u16 : u16.Steady := (steady_take 2).map _

lemma steady_u32 : u32.Steady := (steady_take 4).map _

end Reader

end TensorMachine
