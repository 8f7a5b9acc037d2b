import SuiCash.Lib.Runs
import SuiCash.Lib.Semaphore

/-!
# Proof slots

`prove_blocking` of `server/src/api/handler.rs`, with everything that can happen
around it: `attest` calls arrive, proofs start and end on the blocking pool, and
clients disconnect.

A permit belongs to the handler and the proof to the blocking pool.  A client that
disconnects drops its handler, wherever that is waiting, and the permit with it; the
proof it has handed over stays, and runs to its end.  So more proofs can run than
there are permits (`exceeds_slots`): as many as were handed over while a dropped
call's proof was unfinished, and no others (`running_le_slots`).
-/

namespace SuiCash.Server.ProofSlots

def MAX_CONCURRENT_PROOFS : ℕ := 1

/-- One `attest` call that reached `prove_blocking`. -/
abbrev Call := ℕ

/-- The semaphore, and where handlers and proofs are. -/
structure State where
  /-- Who waits at `acquire` and who has a permit. -/
  slots : Semaphore Call MAX_CONCURRENT_PROOFS
  /-- Handlers that wait for the proof they handed over. -/
  joining : Finset Call
  /-- Proofs that the blocking pool has not started. -/
  queued : Finset Call
  /-- Proofs being computed. -/
  running : Finset Call

inductive Event where
  /-- A call arrives and runs up to its first wait. -/
  | attest (a : Call)
  /-- A handler that was given a permit while it waited runs up to its next wait. -/
  | resume (a : Call)
  /-- The blocking pool starts a proof. -/
  | start (a : Call)
  /-- `prover::prove` returns, or panics. -/
  | finish (a : Call)
  /-- A handler takes its proof's result and returns. -/
  | join (a : Call)
  /-- A handler is dropped at the point where it waits. -/
  | disconnect (a : Call)
  deriving DecidableEq

namespace State

def new : State := ⟨.new _, ∅, ∅, ∅⟩

variable (st : State)

def unfinished : Finset Call := st.queued ∪ st.running

/-- Unfinished proofs whose handlers were dropped. -/
def orphans : Finset Call := st.unfinished \ st.joining

/-- `spawn_blocking`, and the wait for its handle. -/
def spawnBlocking (a : Call) : State :=
  { st with joining := insert a st.joining, queued := insert a st.queued }

def step (st : State) : Event → Option State
  | .attest a =>
    if h : ¬ st.slots.Present a ∧ a ∉ st.unfinished then
      let st' := { st with slots := st.slots.acquire a h.1 }
      some (if a ∈ st'.slots.holders then st'.spawnBlocking a else st')
    else none
  | .resume a =>
    if a ∈ st.slots.holders ∧ a ∉ st.joining then some (st.spawnBlocking a) else none
  | .start a =>
    if a ∈ st.queued then
      some { st with queued := st.queued.erase a, running := insert a st.running }
    else none
  | .finish a =>
    if a ∈ st.running then some { st with running := st.running.erase a } else none
  | .join a =>
    if h : a ∈ st.slots.holders then
      if a ∈ st.joining ∧ a ∉ st.unfinished then
        some { st with slots := st.slots.release a h, joining := st.joining.erase a }
      else none
    else none
  | .disconnect a =>
    if h : a ∈ st.slots.holders then
      some { st with slots := st.slots.release a h, joining := st.joining.erase a }
    else if a ∈ st.slots.waiters then some { st with slots := st.slots.leave a }
    else none

def Spawns : Event → Prop
  | .attest _ => st.slots.permits ≠ 0
  | .resume _ => True
  | _ => False

instance : ∀ e, Decidable (st.Spawns e)
  | .attest _ => inferInstanceAs (Decidable (_ ≠ _))
  | .resume _ => .isTrue trivial
  | .start _ | .finish _ | .join _ | .disconnect _ => .isFalse id

/-- No proof is handed over while a dropped call's proof is unfinished. -/
def Attended (e : Event) : Prop := st.Spawns e → st.orphans = ∅

instance (e : Event) : Decidable (st.Attended e) := inferInstanceAs (Decidable (_ → _))

end State

open State

/-! ### What one step does -/

theorem unfinished_start {st : State} {a : Call} (h : a ∈ st.queued) :
    st.queued.erase a ∪ insert a st.running = st.unfinished := by
  rw [Finset.union_insert, ← Finset.insert_union, Finset.insert_erase h, unfinished]

/-- A step that hands over a proof, of a call that has a permit and has handed over
none. -/
structure HandsOver (st st' : State) (a : Call) : Prop where
  holder : a ∈ st'.slots.holders
  holders : st.slots.holders ⊆ st'.slots.holders
  joining : st'.joining = insert a st.joining
  queued : st'.queued = insert a st.queued
  running : st'.running = st.running
  fresh : a ∈ st.unfinished → st.slots.Present a ∧ a ∉ st.joining
  present : ∀ b, st'.slots.Present b → b = a ∨ st.slots.Present b

/-- A step that hands over none: no proof is new, and a handler that waits for one
keeps its permit and goes on waiting while it is there. -/
structure HandsOverNone (st st' : State) : Prop where
  unfinished : st'.unfinished ⊆ st.unfinished
  joining : st'.joining ⊆ st.joining
  holders : ∀ a ∈ st'.joining, a ∈ st.slots.holders → a ∈ st'.slots.holders
  present : ∀ b ∈ st.unfinished, st'.slots.Present b →
    st.slots.Present b ∧ (b ∈ st.joining → b ∈ st'.joining)

theorem handsOverNone_release {st : State} {a : Call} (h : a ∈ st.slots.holders) :
    HandsOverNone st { st with slots := st.slots.release a h, joining := st.joining.erase a } where
  unfinished := Finset.Subset.refl _
  joining := Finset.erase_subset _ _
  holders _ hb hholder :=
    Semaphore.erase_subset_holders_release h
      (Finset.mem_erase.mpr ⟨(Finset.mem_erase.mp hb).1, hholder⟩)
  present b _ hb := by
    obtain ⟨hne, hpresent⟩ := Semaphore.present_release h hb
    exact ⟨hpresent, fun hjoining => Finset.mem_erase.mpr ⟨hne, hjoining⟩⟩

theorem handsOverNone_pool {st : State} {queued running : Finset Call}
    (h : queued ∪ running ⊆ st.unfinished) :
    HandsOverNone st { st with queued := queued, running := running } where
  unfinished := h
  joining := Finset.Subset.refl _
  holders _ _ hholder := hholder
  present _ _ hb := ⟨hb, id⟩

theorem step_cases {st st' : State} {e : Event} (h : st.step e = some st') :
    (st.Spawns e ∧ ∃ a, HandsOver st st' a) ∨ ¬ st.Spawns e ∧ HandsOverNone st st' := by
  cases e with
  | attest a =>
    obtain ⟨⟨habsent, hnew⟩, h⟩ := Option.dite_none_right_eq_some.mp h
    rw [Option.some.injEq] at h
    by_cases hfree : st.slots.permits = 0
    · have hnot : a ∉ (st.slots.acquire a habsent).holders :=
        fun hmem => (Semaphore.mem_holders_acquire habsent).mp hmem hfree
      rw [if_neg hnot] at h
      subst h
      refine .inr ⟨fun hne => hne hfree, Finset.Subset.refl _, Finset.Subset.refl _,
        fun b _ hb => Semaphore.subset_holders_acquire habsent hb, fun b hb hpresent => ?_⟩
      rcases Semaphore.present_acquire habsent hpresent with rfl | hpresent
      · exact absurd hb hnew
      · exact ⟨hpresent, id⟩
    · have hmem := (Semaphore.mem_holders_acquire habsent).mpr hfree
      rw [if_pos hmem] at h
      subst h
      exact .inl ⟨hfree, a, hmem, Semaphore.subset_holders_acquire habsent, rfl, rfl, rfl,
        fun hunfinished => absurd hunfinished hnew,
        fun b hb => Semaphore.present_acquire habsent hb⟩
  | resume a =>
    obtain ⟨⟨hholder, hnew⟩, h⟩ := Option.ite_none_right_eq_some.mp h
    cases h
    exact .inl ⟨trivial, a, hholder, Finset.Subset.refl _, rfl, rfl, rfl,
      fun _ => ⟨.inr hholder, hnew⟩, fun _ hb => .inr hb⟩
  | start a =>
    obtain ⟨hqueued, h⟩ := Option.ite_none_right_eq_some.mp h
    cases h
    exact .inr ⟨id, handsOverNone_pool (unfinished_start hqueued).subset⟩
  | finish a =>
    obtain ⟨-, h⟩ := Option.ite_none_right_eq_some.mp h
    cases h
    exact .inr ⟨id,
      handsOverNone_pool (Finset.union_subset_union_right (Finset.erase_subset _ _))⟩
  | join a =>
    obtain ⟨hholder, h⟩ := Option.dite_none_right_eq_some.mp h
    obtain ⟨-, h⟩ := Option.ite_none_right_eq_some.mp h
    cases h
    exact .inr ⟨id, handsOverNone_release hholder⟩
  | disconnect a =>
    by_cases hholder : a ∈ st.slots.holders
    · rw [step, dif_pos hholder] at h
      cases h
      exact .inr ⟨id, handsOverNone_release hholder⟩
    · rw [step, dif_neg hholder] at h
      obtain ⟨-, h⟩ := Option.ite_none_right_eq_some.mp h
      cases h
      exact .inr ⟨id, Finset.Subset.refl _, Finset.Subset.refl _, fun _ _ hb => hb,
        fun b _ hb => ⟨Semaphore.present_leave hb, id⟩⟩

theorem HandsOver.unfinished {st st' : State} {a : Call} (h : HandsOver st st' a) :
    st'.unfinished = insert a st.unfinished := by
  rw [State.unfinished, h.queued, h.running, Finset.insert_union, State.unfinished]

/-- **Nobody waits for nothing**: while a call waits, the server has a step of its own
to take. -/
theorem exists_step_of_waiting {st : State} (h : st.slots.waiters ≠ []) :
    ∃ e st', st.step e = some st' ∧ ∀ a, e ≠ .attest a ∧ e ≠ .disconnect a := by
  have hcard := st.slots.card_holders_of_waiting h
  obtain ⟨a, ha⟩ := Finset.card_pos.mp (hcard.symm ▸ Nat.one_pos : 0 < st.slots.holders.card)
  by_cases hjoining : a ∈ st.joining
  · by_cases hqueued : a ∈ st.queued
    · exact ⟨.start a, _, if_pos hqueued, fun _ => ⟨nofun, nofun⟩⟩
    · by_cases hrunning : a ∈ st.running
      · exact ⟨.finish a, _, if_pos hrunning, fun _ => ⟨nofun, nofun⟩⟩
      · have hdone : a ∉ st.unfinished := by
          rw [State.unfinished, Finset.mem_union, not_or]
          exact ⟨hqueued, hrunning⟩
        exact ⟨.join a, _, (dif_pos ha).trans (if_pos ⟨hjoining, hdone⟩), fun _ => ⟨nofun, nofun⟩⟩
  · exact ⟨.resume a, _, if_pos ⟨ha, hjoining⟩, fun _ => ⟨nofun, nofun⟩⟩

/-! ### The bound -/

/-- Handlers that wait for a proof have a permit, and there are no more unfinished
proofs than permits. -/
structure Bounded (st : State) : Prop where
  joining : st.joining ⊆ st.slots.holders
  unfinished : st.unfinished.card ≤ MAX_CONCURRENT_PROOFS

theorem Bounded.new : Bounded .new := ⟨Finset.Subset.refl _, Nat.zero_le _⟩

/-- **Step lemma**: without orphans, the unfinished proofs and the one handed over are
of calls with permits. -/
theorem Bounded.step {st st' : State} {e : Event} (h : st.step e = some st') (hC : st.Attended e)
    (hst : Bounded st) : Bounded st' := by
  rcases step_cases h with ⟨hspawns, a, hover⟩ | ⟨-, hnone⟩
  · have hwaited : st.unfinished ⊆ st.joining := Finset.sdiff_eq_empty_iff_subset.mp (hC hspawns)
    have hjoining : st'.joining ⊆ st'.slots.holders := by
      rw [hover.joining, Finset.insert_subset_iff]
      exact ⟨hover.holder, hst.joining.trans hover.holders⟩
    refine ⟨hjoining, (Finset.card_le_card ?_).trans st'.slots.card_holders_le⟩
    rw [hover.unfinished]
    refine Finset.Subset.trans (Finset.insert_subset_insert a hwaited) ?_
    rw [← hover.joining]
    exact hjoining
  · exact ⟨fun a ha => hnone.holders a ha (hst.joining (hnone.joining ha)),
      (Finset.card_le_card hnone.unfinished).trans hst.unfinished⟩

/-- **No more proofs run than there are permits**, in every run that hands none over
while a dropped call's proof is unfinished. -/
theorem running_le_slots {events : List Event} {st : State}
    (hC : Runs.Along State.step Attended .new events)
    (hrun : Runs.run State.step .new events = some st) :
    st.running.card ≤ MAX_CONCURRENT_PROOFS :=
  (Finset.card_le_card Finset.subset_union_right).trans
    (Runs.invariant Bounded.step hC Bounded.new hrun).unfinished

/-- Three calls: one gives up waiting, one disconnects when its proof is done. -/
theorem running_le_slots_attended :
    ∃ st, Runs.run State.step .new
        [.attest 0, .attest 1, .attest 2, .disconnect 1, .start 0, .finish 0, .disconnect 0,
          .resume 2, .start 2] = some st
      ∧ st.running.card ≤ MAX_CONCURRENT_PROOFS :=
  ⟨_, rfl, @running_le_slots [.attest 0, .attest 1, .attest 2, .disconnect 1, .start 0, .finish 0,
    .disconnect 0, .resume 2, .start 2] _ (by decide +kernel) rfl⟩

/-- **Two proofs at once**: the first client disconnects while its proof runs, and the
second call takes the permit. -/
theorem exceeds_slots :
    ∃ st, Runs.run State.step .new [.attest 0, .start 0, .disconnect 0, .attest 1, .start 1] = some st
      ∧ ¬ st.running.card ≤ MAX_CONCURRENT_PROOFS :=
  ⟨_, rfl, by decide⟩

/-! ### The condition cannot be dropped -/

/-- A call that is still there has no unfinished proof but the one it waits for. -/
def Tracked (st : State) : Prop := ∀ a ∈ st.unfinished, st.slots.Present a → a ∈ st.joining

theorem Tracked.step {st st' : State} {e : Event} (h : st.step e = some st') (hst : Tracked st) :
    Tracked st' := by
  intro b hb hpresent
  rcases step_cases h with ⟨-, a, hover⟩ | ⟨-, hnone⟩
  · rw [hover.joining]
    rw [hover.unfinished] at hb
    rcases Finset.mem_insert.mp hb with rfl | hb
    · exact Finset.mem_insert_self b _
    · rcases hover.present b hpresent with rfl | hpresent
      · exact Finset.mem_insert_self b _
      · exact Finset.mem_insert_of_mem (hst b hb hpresent)
  · have hunfinished := hnone.unfinished hb
    obtain ⟨hpresent, hjoining⟩ := hnone.present b hunfinished hpresent
    exact hjoining (hst b hunfinished hpresent)

theorem exists_run_start (st : State) (a : Call) (h : a ∈ st.unfinished) :
    ∃ events st', Runs.run State.step st events = some st' ∧ a ∈ st'.running
      ∧ st.running ⊆ st'.running ∧ st'.unfinished = st.unfinished := by
  rcases Finset.mem_union.mp h with hqueued | hrunning
  · refine ⟨[.start a],
      { st with queued := st.queued.erase a, running := insert a st.running }, ?_,
      Finset.mem_insert_self a st.running, Finset.subset_insert a st.running,
      unfinished_start hqueued⟩
    rw [Runs.run_cons, step, if_pos hqueued]
    rfl
  · exact ⟨[], st, rfl, hrunning, Finset.Subset.refl _, rfl⟩

/-- **Whenever a proof is handed over while an orphan is unfinished**, the bound can be
exceeded. -/
theorem exceeds_of_not_attended {events : List Event} {st st' : State} {e : Event}
    (hrun : Runs.run State.step .new events = some st) (h : st.step e = some st')
    (hC : ¬ st.Attended e) :
    ∃ later st'', Runs.run State.step st' later = some st''
      ∧ ¬ st''.running.card ≤ MAX_CONCURRENT_PROOFS := by
  obtain ⟨hspawns, horphans⟩ := Classical.not_imp.mp hC
  obtain ⟨o, ho⟩ := Finset.nonempty_iff_ne_empty.mpr horphans
  obtain ⟨hunfinished, hnot⟩ := Finset.mem_sdiff.mp ho
  have htracked : Tracked st :=
    Runs.invariant_run Tracked.step (fun _ ha => absurd ha (Finset.notMem_empty _)) hrun
  rcases step_cases h with ⟨-, a, hover⟩ | ⟨hnone, -⟩
  · have hne : o ≠ a := by
      rintro rfl
      obtain ⟨hpresent, -⟩ := hover.fresh hunfinished
      exact hnot (htracked o hunfinished hpresent)
    have ho' : o ∈ st'.unfinished := by
      rw [hover.unfinished]
      exact Finset.mem_insert_of_mem hunfinished
    have ha' : a ∈ st'.unfinished := by
      rw [hover.unfinished]
      exact Finset.mem_insert_self a _
    obtain ⟨es1, st1, hrun1, ho1, -, hunfinished1⟩ := exists_run_start st' o ho'
    obtain ⟨es2, st2, hrun2, ha2, hsub2, -⟩ := exists_run_start st1 a (hunfinished1 ▸ ha')
    refine ⟨es1 ++ es2, st2, ?_, ?_⟩
    · rw [Runs.run_append, hrun1]
      exact hrun2
    · have hpair : {o, a} ⊆ st2.running := by
        rw [Finset.insert_subset_iff, Finset.singleton_subset_iff]
        exact ⟨hsub2 ho1, ha2⟩
      have hcard := Finset.card_le_card hpair
      rw [Finset.card_pair hne] at hcard
      exact Nat.not_le_of_lt hcard
  · exact absurd hspawns hnone

end SuiCash.Server.ProofSlots
