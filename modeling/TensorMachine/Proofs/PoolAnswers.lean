import TensorMachine.Proofs.PoolAttempts
import Mathlib.Data.List.Induction

/-!
# What a pool answers for ever

A pool refuses a call about an identifier for what has become of it: it was never inserted, it was
freed, or it was consumed, and then by which successor. The answer is read off the calls that were
granted before. Every identifier leaves once, so that no later call changes the reason.

A refused call leaves the pool as it was. This holds for the single steps of the calls, which could
leave changes behind when a later step fails.
-/

namespace TensorMachine.Pool

variable {η : Type}

/-!
### Departures
-/

/-- The identifiers that were inserted. -/
def insertions (calls : List (Call η)) : List TensorId :=
  (history calls).1.flatMap Served.inserted

/-- The identifiers that left, with the fate that each met: to be freed by a removal or a drain, or
to be consumed by the successor that the call named. -/
def departures (calls : List (Call η)) : List (TensorId × Fate) :=
  (history calls).1.flatMap Served.left

lemma history_append (calls more : List (Call η)) :
    history (calls ++ more) = more.foldl extend (history calls) := List.foldl_append

lemma nodup_left_serve {p : Pool η} (hids : p.ids.Nodup) (call : Call η) :
    ((p.serve call).1.left.map Prod.fst).Nodup := by
  unfold serve
  cases call with
  | drain =>
    change ((p.drain.1.map fun t => (t.1, Fate.freed)).map Prod.fst).Nodup
    rw [List.map_map]
    exact (map_fst_holdings p).symm ▸ hids
  | insert | replaceHandle | transition | remove | consume =>
    split <;> simp [Served.left]

/-- No identifier leaves twice: one that leaves is live, and one that left is not. -/
lemma nodup_departures (calls : List (Call η)) : ((departures calls).map Prod.fst).Nodup := by
  induction calls using List.reverseRecOn with
  | nil => exact .nil
  | append_singleton calls call ih =>
    have h := recounted_history calls
    have hserved := explains_serve h.nodup_ids call
    have hconcat : departures (calls ++ [call]) =
        departures calls ++ ((history calls).2.serve call).1.left := by
      simp [departures, history_append, extend]
    rw [hconcat, List.map_append]
    refine ih.append (nodup_left_serve h.nodup_ids call) fun id hold hnew => ?_
    have hlive := hserved.left_live id hnew
    rw [h.ids, List.mem_filter, decide_eq_true_eq] at hlive
    exact hlive.2 hold

/-- What happened stays part of a history. -/
lemma served_append (calls more : List (Call η)) :
    ∃ later, (history (calls ++ more)).1 = (history calls).1 ++ later := by
  induction more using List.reverseRecOn with
  | nil => exact ⟨[], by simp⟩
  | append_singleton more call ih =>
    obtain ⟨later, hlater⟩ := ih
    refine ⟨later ++ [((history (calls ++ more)).2.serve call).1], ?_⟩
    rw [← List.append_assoc calls, history_append (calls ++ more), ← List.append_assoc, ← hlater]
    rfl

lemma insertions_subset (calls more : List (Call η)) :
    insertions calls ⊆ insertions (calls ++ more) := by
  obtain ⟨later, hlater⟩ := served_append calls more
  rw [insertions, insertions, hlater, List.flatMap_append]
  exact List.subset_append_left _ _

lemma departures_subset (calls more : List (Call η)) :
    departures calls ⊆ departures (calls ++ more) := by
  obtain ⟨later, hlater⟩ := served_append calls more
  rw [departures, departures, hlater, List.flatMap_append]
  exact List.subset_append_left _ _

variable {calls more : List (Call η)} {id : TensorId}

/-- The pool remembers the fates that identifiers met. -/
lemma fate?_history_iff {fate : Fate} :
    (history calls).2.fate? id = some fate ↔ (id, fate) ∈ departures calls := by
  have hkeys : ((departures calls).reverse.map Prod.fst).Nodup := by
    rw [List.map_reverse, List.nodup_reverse]
    exact nodup_departures calls
  rw [fate?, (recounted_history calls).retired]
  exact (lookup_eq_some_iff_mem hkeys).trans List.mem_reverse

lemma isKnown_history_iff : (history calls).2.isKnown id = true ↔ id ∈ insertions calls := by
  rw [← not_iff_not, Bool.not_eq_true, (recounted_history calls).isKnown_eq_false_iff]
  rfl

lemma find?_of_departed {fate : Fate} (h : (id, fate) ∈ departures calls) :
    (history calls).2.find? id = none := by
  rw [find?_eq_none_iff, (recounted_history calls).ids, List.mem_filter, decide_eq_true_eq]
  exact fun hlive => hlive.2 (List.mem_map_of_mem h)

/-- An identifier that is not live was never inserted or left. -/
lemma find?_history_eq_none (h : (history calls).2.find? id = none) :
    id ∉ insertions calls ∧ (history calls).2.fate? id = none ∨
      ∃ fate, (id, fate) ∈ departures calls := by
  cases hfate : (history calls).2.fate? id with
  | some fate => exact .inr ⟨fate, fate?_history_iff.mp hfate⟩
  | none =>
    refine .inl ⟨?_, rfl⟩
    rw [← isKnown_history_iff, Bool.not_eq_true, isKnown_eq_false_iff]
    exact ⟨h, hfate⟩

/-!
### Answers
-/

/-- The cause for which no live tensor has an identifier after some calls. -/
inductive Missing (calls : List (Call η)) (id : TensorId) : PoolError → Prop
  | unknown (h : id ∉ insertions calls) : Missing calls id (.unknownIdentifier id)
  | freed (h : (id, .freed) ∈ departures calls) : Missing calls id (.useAfterFree id)
  | consumed {successor : TensorId} (h : (id, .consumed successor) ∈ departures calls) :
    Missing calls id (.consumedIdentifier id successor)

/-- The cause for which an identifier may not become some state after some calls. -/
inductive Immovable (calls : List (Call η)) (id : TensorId) (target : State) : PoolError → Prop
  | unknown (h : id ∉ insertions calls) : Immovable calls id target (.unknownIdentifier id)
  | freed (h : (id, .freed) ∈ departures calls) :
    Immovable calls id target (.illegalTransition id .freed target)
  | consumed {successor : TensorId} (h : (id, .consumed successor) ∈ departures calls) :
    Immovable calls id target (.consumedIdentifier id successor)
  | live {e : Entry η} (h : (history calls).2.get id = .ok e)
    (hmove : e.state.canBecome target = false) :
    Immovable calls id target (.illegalTransition id e.state target)

/-- The causes for which a pool refuses calls about an identifier after some calls. -/
structure Answers (calls : List (Call η)) (p : Pool η) (id : TensorId) : Prop where
  get : ∀ e, p.get id = .error e ↔ Missing calls id e
  replaceHandle : ∀ handle e, p.replaceHandle id handle = .error e ↔ Missing calls id e
  consume : ∀ successor e, p.consume id successor = .error e ↔ Missing calls id e
  checkTransition : ∀ target e, p.checkTransition id target = .error e ↔ Immovable calls id target e
  transition : ∀ target e, p.transition id target = .error e ↔
    Immovable calls id target e ∨
      target = .freed ∧ ∃ t, p.get id = .ok t ∧ e = .illegalTransition id t.state .freed
  remove : ∀ e, p.remove id = .error e ↔ Immovable calls id .freed e
  ensureFresh : ∀ e, p.ensureFresh id = .error e ↔
    id ∈ insertions calls ∧ e = .duplicateIdentifier id
  insert : ∀ handle state e, p.insert id handle state = .error e ↔
    id ∈ insertions calls ∧ e = .duplicateIdentifier id ∨
      id ∉ insertions calls ∧ state = .freed ∧ e = .illegalTransition id .freed .freed

lemma get_eq_error_iff {p : Pool η} {e : PoolError} :
    p.get id = .error e ↔ p.find? id = none ∧ p.missing id = e := by
  unfold get
  cases p.find? id <;> simp

/-- What the pool remembers of an identifier that is not live is what happened to it. -/
lemma missing_iff {e : PoolError} :
    Missing calls id e ↔ (history calls).2.find? id = none ∧ (history calls).2.missing id = e := by
  constructor
  · intro h
    cases h with
    | unknown hnew =>
      have hunknown : (history calls).2.isKnown id = false := by
        rwa [← Bool.not_eq_true, isKnown_history_iff]
      obtain ⟨hfind, hfate⟩ := (isKnown_eq_false_iff _ id).mp hunknown
      exact ⟨hfind, by rw [missing, hfate]⟩
    | freed hleft | consumed hleft =>
      exact ⟨find?_of_departed hleft, by rw [missing, fate?_history_iff.mpr hleft]⟩
  · rintro ⟨hfind, rfl⟩
    unfold missing
    cases hfate : (history calls).2.fate? id with
    | none =>
      refine .unknown fun hmem => ?_
      have hunknown := (isKnown_eq_false_iff _ id).mpr ⟨hfind, hfate⟩
      rw [isKnown_history_iff.mpr hmem] at hunknown
      cases hunknown
    | some fate =>
      have hleft := fate?_history_iff.mp hfate
      cases fate with
      | freed => exact .freed hleft
      | consumed successor => exact .consumed hleft

lemma get_history_eq_error_iff {e : PoolError} :
    (history calls).2.get id = .error e ↔ Missing calls id e :=
  get_eq_error_iff.trans missing_iff.symm

lemma checkTransition_history_eq_error_iff {target : State} {e : PoolError} :
    (history calls).2.checkTransition id target = .error e ↔ Immovable calls id target e := by
  constructor
  · intro h
    cases hfind : (history calls).2.find? id with
    | some t =>
      simp only [checkTransition, hfind] at h
      split at h
      case isTrue => cases h
      case isFalse hmove =>
        cases h
        exact .live (get_eq_ok_iff.mpr hfind) (Bool.not_eq_true _ ▸ hmove)
    | none =>
      have hmissing : Missing calls id _ := missing_iff.mpr ⟨hfind, rfl⟩
      simp only [checkTransition, hfind] at h
      generalize (history calls).2.missing id = cause at h hmissing
      cases hmissing with
      | unknown hnew =>
        cases h
        exact .unknown hnew
      | freed hleft =>
        cases h
        exact .freed hleft
      | consumed hleft =>
        cases h
        exact .consumed hleft
  · intro h
    cases h with
    | unknown hnew =>
      obtain ⟨hfind, hmissing⟩ := missing_iff.mp (.unknown hnew)
      simp only [checkTransition, hfind, hmissing]
    | freed hleft =>
      obtain ⟨hfind, hmissing⟩ := missing_iff.mp (.freed hleft)
      simp only [checkTransition, hfind, hmissing]
    | consumed hleft =>
      obtain ⟨hfind, hmissing⟩ := missing_iff.mp (.consumed hleft)
      simp only [checkTransition, hfind, hmissing]
    | live hget hmove =>
      simp only [checkTransition, get_eq_ok_iff.mp hget, hmove]
      rfl

lemma ensureFresh_history_eq_error_iff {e : PoolError} :
    (history calls).2.ensureFresh id = .error e ↔
      id ∈ insertions calls ∧ e = .duplicateIdentifier id := by
  rw [← isKnown_history_iff, ensureFresh]
  by_cases hknown : (history calls).2.isKnown id = true
  · simp [hknown, eq_comm]
  · simp [hknown]

lemma ensureFresh_history_eq_ok_iff :
    (history calls).2.ensureFresh id = .ok () ↔ id ∉ insertions calls := by
  rw [ensureFresh_eq_ok_iff, ← isKnown_history_iff, Bool.not_eq_true]

lemma transition_history_eq_error_iff {target : State} {e : PoolError} :
    (history calls).2.transition id target = .error e ↔
      Immovable calls id target e ∨
        target = .freed ∧ ∃ t, (history calls).2.get id = .ok t ∧
          e = .illegalTransition id t.state .freed := by
  rw [← checkTransition_history_eq_error_iff]
  constructor
  · intro h
    rcases Except.bind_eq_error_iff.mp h with hcheck | ⟨t, hcheck, hrest⟩
    · exact .inl hcheck
    · have hget := get_eq_ok_iff.mpr (checkTransition_eq_ok_iff.mp hcheck).1
      cases target with
      | resident side => cases hrest
      | freed =>
        cases hrest
        exact .inr ⟨rfl, t, hget, rfl⟩
  · rintro (hcheck | ⟨rfl, t, hget, rfl⟩)
    · exact Except.bind_eq_error_iff.mpr (.inl hcheck)
    · have hcheck := checkTransition_eq_ok_iff.mpr
        ⟨get_eq_ok_iff.mp hget, (rfl : t.state.canBecome .freed = true)⟩
      exact Except.bind_eq_error_iff.mpr (.inr ⟨t, hcheck, rfl⟩)

lemma insert_history_eq_error_iff {handle : η} {state : State} {e : PoolError} :
    (history calls).2.insert id handle state = .error e ↔
      id ∈ insertions calls ∧ e = .duplicateIdentifier id ∨
        id ∉ insertions calls ∧ state = .freed ∧ e = .illegalTransition id .freed .freed := by
  rw [← ensureFresh_history_eq_error_iff, ← ensureFresh_history_eq_ok_iff]
  constructor
  · intro h
    rcases Except.bind_eq_error_iff.mp h with hknown | ⟨_, hfresh, hrest⟩
    · exact .inl hknown
    · cases state with
      | resident side => cases hrest
      | freed =>
        cases hrest
        exact .inr ⟨hfresh, rfl, rfl⟩
  · rintro (hknown | ⟨hfresh, rfl, rfl⟩)
    · exact Except.bind_eq_error_iff.mpr (.inl hknown)
    · exact Except.bind_eq_error_iff.mpr (.inr ⟨(), hfresh, rfl⟩)

/-- The answers of a pool are those that its history demands. -/
lemma answers_history (calls : List (Call η)) (id : TensorId) :
    Answers calls (history calls).2 id where
  get e := get_history_eq_error_iff
  replaceHandle handle e := by
    rw [← get_history_eq_error_iff, Pool.replaceHandle, Except.bind_eq_error_iff]
    simp
  consume successor e := by
    rw [← get_history_eq_error_iff, Pool.consume, Except.bind_eq_error_iff]
    simp
  checkTransition target e := checkTransition_history_eq_error_iff
  transition target e := transition_history_eq_error_iff
  remove e := by
    rw [← checkTransition_history_eq_error_iff, Pool.remove, Except.bind_eq_error_iff]
    simp
  ensureFresh e := ensureFresh_history_eq_error_iff
  insert handle state e := insert_history_eq_error_iff

/-!
### Later calls
-/

/-- The identifier that a call is about. A drain is about none. -/
def Call.subject? : Call η → Option TensorId
  | insert id _ _ | replaceHandle id _ | transition id _ | remove id | consume id _ => some id
  | drain => none

/-- Two pools answer all questions and calls about an identifier in the same way. -/
structure SameAnswers (p q : Pool η) (id : TensorId) : Prop where
  get : q.get id = p.get id
  checkTransition : ∀ target, q.checkTransition id target = p.checkTransition id target
  ensureFresh : q.ensureFresh id = p.ensureFresh id
  served : ∀ call : Call η, call.subject? = some id → (q.serve call).1 = (p.serve call).1

lemma served_eq (p : Pool η) (call : Call η) :
    (p.serve call).1 = ⟨call, (p.grant call).map Prod.fst⟩ := by
  unfold serve
  cases p.grant call <;> rfl

/-- Pools that do not hold an identifier and remember the same of it answer in the same way. -/
lemma sameAnswers_of_not_live {p q : Pool η} (hp : p.find? id = none) (hq : q.find? id = none)
    (hfate : q.fate? id = p.fate? id) : SameAnswers p q id := by
  have hmissing : q.missing id = p.missing id := by rw [missing, missing, hfate]
  have hget : q.get id = p.get id := by rw [get, get, hp, hq, hmissing]
  have hcheck : ∀ target, q.checkTransition id target = p.checkTransition id target := by
    intro target
    rw [checkTransition, checkTransition, hp, hq, hmissing]
  have hfresh : q.ensureFresh id = p.ensureFresh id := by
    rw [ensureFresh, ensureFresh, isKnown, isKnown, contains, contains, hp, hq, hfate]
  have hgets : p.get id = .error (p.missing id) := by rw [get, hp]
  have hchecks : ∀ target, ∃ e, p.checkTransition id target = .error e := by
    intro target
    rw [checkTransition, hp]
    cases p.missing id <;> exact ⟨_, rfl⟩
  refine ⟨hget, hcheck, hfresh, fun call hsubject => ?_⟩
  rw [served_eq, served_eq]
  cases call with
  | drain => cases hsubject
  | insert x handle state =>
    cases hsubject
    simp only [grant, Pool.insert, hfresh]
    cases p.ensureFresh id <;> cases state <;> rfl
  | replaceHandle x handle =>
    cases hsubject
    rw [grant, grant, Pool.replaceHandle, Pool.replaceHandle, hget, hgets]
    rfl
  | transition x target =>
    cases hsubject
    obtain ⟨e, he⟩ := hchecks target
    rw [grant, grant, Pool.transition, Pool.transition, hcheck, he]
    rfl
  | remove x =>
    cases hsubject
    obtain ⟨e, he⟩ := hchecks .freed
    rw [grant, grant, Pool.remove, Pool.remove, hcheck, he]
    rfl
  | consume x successor =>
    cases hsubject
    rw [grant, grant, Pool.consume, Pool.consume, hget, hgets]
    rfl

/-- Later calls do not change the answers about an identifier that is not live, unless they insert
it for the first time. -/
lemma sameAnswers_history_append (hgone : (history calls).2.find? id = none)
    (hnew : id ∈ insertions (calls ++ more) → id ∈ insertions calls) :
    SameAnswers (history calls).2 (history (calls ++ more)).2 id := by
  rcases find?_history_eq_none hgone with ⟨hnever, hnone⟩ | ⟨fate, hleft⟩
  · have hunknown : (history (calls ++ more)).2.isKnown id = false := by
      rw [← Bool.not_eq_true, isKnown_history_iff]
      exact fun hmem => hnever (hnew hmem)
    obtain ⟨hfind, hfate⟩ := (isKnown_eq_false_iff _ id).mp hunknown
    exact sameAnswers_of_not_live hgone hfind (hfate.trans hnone.symm)
  · have hstill := departures_subset calls more hleft
    refine sameAnswers_of_not_live hgone (find?_of_departed hstill) ?_
    rw [fate?_history_iff.mpr hstill, fate?_history_iff.mpr hleft]

/-- A pool refuses calls about an identifier exactly for what became of it in the calls before, and
later calls do not change the reason: the identifier is never inserted again, and if it is not live
and stays uninserted by them, then all answers about it remain the same. The steps of each call come
to the answer and the pool of the call, and those of a refused call leave the pool as it was. -/
theorem history_answers (calls more : List (Call η)) (id : TensorId) :
    Answers calls (history calls).2 id ∧
      (id ∈ insertions calls →
        (history (calls ++ more)).2.ensureFresh id = .error (.duplicateIdentifier id) ∧
        ∀ handle state, (history (calls ++ more)).2.insert id handle state =
          .error (.duplicateIdentifier id)) ∧
      (id ∉ (history calls).2.ids →
        (id ∈ insertions (calls ++ more) → id ∈ insertions calls) →
        SameAnswers (history calls).2 (history (calls ++ more)).2 id) ∧
      ∀ (call : Call η) (p : Pool η),
        attempt call p = ((p.serve call).1.answer, (p.serve call).2) ∧
        ∀ e, (attempt call p).1 = .error e → (attempt call p).2 = p := by
  refine ⟨answers_history calls id, fun hmem => ?_, fun hgone hnew => ?_, fun call p => ⟨?_, ?_⟩⟩
  · have hlater := answers_history (calls ++ more) id
    have hmem := insertions_subset calls more hmem
    exact ⟨(hlater.ensureFresh _).mpr ⟨hmem, rfl⟩,
      fun handle state => (hlater.insert handle state _).mpr (.inl ⟨hmem, rfl⟩)⟩
  · exact sameAnswers_history_append ((find?_eq_none_iff _ id).mpr hgone) hnew
  · rw [attempt_eq_settle, serve_eq_settle]
  · exact fun e => refused_attempt

/-- An identifier that was consumed tells its successor even when this has been freed since. -/
theorem history_answers_consumed :
    let calls : List (Call Char) := [.insert 3 'a' (.resident .host),
      .insert 1 'b' (.resident .device), .consume 3 1]
    let more : List (Call Char) := [.remove 1, .insert 3 'c' (.resident .host), .drain]
    let p := (history calls).2
    let q := (history (calls ++ more)).2
    3 ∈ insertions calls ∧ 3 ∉ p.ids ∧ q.get 3 = .error (.consumedIdentifier 3 1) ∧
      q.checkTransition 3 (.resident .device) = .error (.consumedIdentifier 3 1) ∧
      q.ensureFresh 3 = .error (.duplicateIdentifier 3) := by
  intro calls more p q
  have hmem : 3 ∈ insertions calls := by decide
  have hgone : 3 ∉ p.ids := by decide
  have hleft : (3, .consumed 1) ∈ departures calls := by decide
  obtain ⟨hanswers, hfresh, hsame, -⟩ := history_answers calls more 3
  have hsame := hsame hgone fun _ => hmem
  refine ⟨hmem, hgone, ?_, ?_, (hfresh hmem).1⟩
  · exact hsame.get.trans ((hanswers.get _).mpr (.consumed hleft))
  · exact (hsame.checkTransition _).trans ((hanswers.checkTransition _ _).mpr (.consumed hleft))

end TensorMachine.Pool
