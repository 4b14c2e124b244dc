import Cs300Projects.Fileio.Streams
import Mathlib.Data.List.Induction

/-!
# When the implementations are interchangeable

The history of a session says which mode the stream can be in and how much of the file has reached
the disk: all of what was written up to the last seek or flush, and of the rest as much as the
library likes. Only the size of the file tells the difference.
-/

namespace Cs300Projects.Fileio

/-- The file after a session by the contract. -/
def after (bytes : List UInt8) (calls : List Call) : OpenFile := calls.foldl (fun f c => (contract f c).2) ⟨bytes, 0⟩

@[simp] lemma after_snoc (bytes : List UInt8) (calls : List Call) (c : Call) :
    after bytes (calls ++ [c]) = (contract (after bytes calls) c).2 := by
  simp [after]

/-- A call never makes the file shorter. -/
lemma contract_size_le (f : OpenFile) (c : Call) : f.size ≤ (contract f c).2.size := by
  cases c with
  | readc =>
    simp only [contract]
    cases f.bytes[f.offset]? <;> exact Nat.le_refl _
  | writec ch => exact length_le_overwrite 0 f.bytes f.offset [byteOf ch]
  | write buff => exact length_le_overwrite 0 f.bytes f.offset buff
  | _ => exact Nat.le_refl _

lemma after_size_le (bytes : List UInt8) (synced writes : List Call) :
    (after bytes synced).size ≤ (after bytes (synced ++ writes)).size := by
  induction writes using List.reverseRecOn with
  | nil => simp
  | append_singleton writes c ih =>
    rw [← List.append_assoc, after_snoc]
    exact Nat.le_trans ih (contract_size_le _ c)

/-- No seek and no flush. -/
def Unsynced (calls : List Call) : Prop := ∀ c ∈ calls, c.syncs = false

lemma Unsynced.snoc {calls : List Call} {c : Call} (h : Unsynced calls) (hc : c.syncs = false) :
    Unsynced (calls ++ [c]) := by
  intro d hd
  rw [List.mem_append, List.mem_singleton] at hd
  rcases hd with hd | rfl
  · exact h d hd
  · exact hc

/-- What was written since the last seek or flush has not made the file longer. -/
def Settled (bytes : List UInt8) (before : List Call) : Prop :=
  ∀ synced writes, before = synced ++ writes → Unsynced writes →
    (after bytes synced).size = (after bytes before).size

lemma settled_of_syncs {bytes : List UInt8} {before : List Call} {c : Call} (hc : c.syncs = true) :
    Settled bytes (before ++ [c]) := by
  intro synced writes hsplit hwrites
  cases writes using List.reverseRecOn with
  | nil => rw [hsplit, List.append_nil]
  | append_singleton writes d =>
    rw [← List.append_assoc] at hsplit
    obtain ⟨-, hd⟩ := List.append_inj' hsplit rfl
    rw [List.singleton_inj] at hd
    rw [hwrites c (by simp [hd])] at hc
    cases hc

/-- Seeks go to the beginning, the characters written are bytes, and the size is not asked for while
the file is longer than it was at the last seek or flush. -/
def Portable (bytes : List UInt8) (calls : List Call) : Prop :=
  (∀ c ∈ calls, c.Plain) ∧ ∀ before rest, calls = before ++ .filesize :: rest → Settled bytes before

/-- A call with `p` after which there was no seek or flush. -/
def Recent (p : Call → Bool) (before : List Call) : Prop :=
  ∃ b a between, before = b ++ a :: between ∧ p a = true ∧ Unsynced between

lemma Recent.last {p : Call → Bool} {before : List Call} {c : Call} (hc : p c = true) : Recent p (before ++ [c]) :=
  ⟨before, c, [], rfl, hc, by simp [Unsynced]⟩

lemma Recent.snoc {p : Call → Bool} {before : List Call} {c : Call} (h : Recent p before) (hc : c.syncs = false) :
    Recent p (before ++ [c]) := by
  obtain ⟨b, a, between, rfl, ha, hbetween⟩ := h
  exact ⟨b, a, between ++ [c], by simp, ha, hbetween.snoc hc⟩

/-- Reads the session once, from the given mode on. -/
def checkSeparated : Mode → List Call → Bool
  | _, [] => true
  | m, c :: calls =>
    if c.syncs then checkSeparated .neutral calls
    else if c.reads then m != .writing && checkSeparated .reading calls
    else if c.writes then m != .reading && checkSeparated .writing calls
    else checkSeparated m calls

/-- The next read or write that `p` selects comes after a seek or a flush. -/
def SyncedBefore (p : Call → Bool) (calls : List Call) : Prop :=
  ∀ between b after, calls = between ++ b :: after → p b = true → ∃ c ∈ between, c.syncs = true

lemma SyncedBefore.cons {p : Call → Bool} {c : Call} {calls : List Call} (hc : p c = false)
    (h : c.syncs = true ∨ SyncedBefore p calls) : SyncedBefore p (c :: calls) := by
  intro between b after hcalls hb
  cases between with
  | nil =>
    obtain ⟨rfl, -⟩ := List.cons.inj hcalls
    rw [hc] at hb
    cases hb
  | cons d between =>
    obtain ⟨rfl, htail⟩ := List.cons.inj hcalls
    cases h with
    | inl hsyncs => exact ⟨c, by simp, hsyncs⟩
    | inr hrest =>
      obtain ⟨e, he, hsyncs⟩ := hrest between b after htail hb
      exact ⟨e, List.mem_cons_of_mem _ he, hsyncs⟩

lemma Separated.cons {c : Call} {calls : List Call} (h : Separated calls)
    (hreads : c.reads = true → SyncedBefore Call.writes calls)
    (hwrites : c.writes = true → SyncedBefore Call.reads calls) : Separated (c :: calls) := by
  intro before a between b after hcalls hab
  cases before with
  | nil =>
    obtain ⟨rfl, htail⟩ := List.cons.inj hcalls
    cases hab with
    | inl hab => exact hreads hab.1 between b after htail hab.2
    | inr hab => exact hwrites hab.1 between b after htail hab.2
  | cons d before => exact h before a between b after (List.cons.inj hcalls).2 hab

lemma checkSeparated_sound {m : Mode} {calls : List Call} (h : checkSeparated m calls = true) :
    Separated calls ∧ (m = .reading → SyncedBefore Call.writes calls) ∧
      (m = .writing → SyncedBefore Call.reads calls) := by
  induction calls generalizing m with
  | nil => exact ⟨by simp [Separated], by simp [SyncedBefore], by simp [SyncedBefore]⟩
  | cons c calls ih =>
    rw [checkSeparated] at h
    cases c with
    | seek pos | flush =>
      refine ⟨(ih h).1.cons (by simp [Call.reads]) (by simp [Call.writes]), fun _ => ?_, fun _ => ?_⟩
      · exact .cons rfl (Or.inl rfl)
      · exact .cons rfl (Or.inl rfl)
    | filesize =>
      obtain ⟨hsep, hreading, hwriting⟩ := ih h
      refine ⟨hsep.cons (by simp [Call.reads]) (by simp [Call.writes]), fun hm => ?_, fun hm => ?_⟩
      · exact .cons rfl (Or.inr (hreading hm))
      · exact .cons rfl (Or.inr (hwriting hm))
    | readc | read sz =>
      simp only [Call.syncs, Call.reads, Bool.and_eq_true, bne_iff_ne, if_true, Bool.false_eq_true, if_false] at h
      obtain ⟨hsep, hreading, -⟩ := ih h.2
      refine ⟨hsep.cons (fun _ => hreading rfl) (by simp [Call.writes]), fun _ => ?_, fun hm => absurd hm h.1⟩
      exact .cons rfl (Or.inr (hreading rfl))
    | writec ch | write buff =>
      simp only [Call.syncs, Call.reads, Call.writes, Bool.and_eq_true, bne_iff_ne, if_true, Bool.false_eq_true,
        if_false] at h
      obtain ⟨hsep, -, hwriting⟩ := ih h.2
      refine ⟨hsep.cons (by simp [Call.reads]) (fun _ => hwriting rfl), fun hm => absurd hm h.1, fun _ => ?_⟩
      exact .cons rfl (Or.inr (hwriting rfl))

lemma separated_of_check {calls : List Call} (h : checkSeparated .neutral calls = true) : Separated calls :=
  (checkSeparated_sound h).1

/-- The call may follow these calls in a separated session. -/
def Admitted (before : List Call) (c : Call) : Prop :=
  (c.reads = true → ¬Recent Call.writes before) ∧ (c.writes = true → ¬Recent Call.reads before)

lemma Separated.admitted {calls before rest : List Call} {c : Call} (h : Separated calls)
    (hcalls : calls = before ++ c :: rest) : Admitted before c := by
  have hnone : ∀ p : Call → Bool, Recent p before →
      (∀ a, p a = true → (a.reads = true ∧ c.writes = true) ∨ (a.writes = true ∧ c.reads = true)) → False := by
    rintro p ⟨b, a, between, rfl, ha, hbetween⟩ hp
    obtain ⟨d, hd, hsyncs⟩ := h b a between c rest (by rw [hcalls]; simp) (hp a ha)
    rw [hbetween d hd] at hsyncs
    cases hsyncs
  exact ⟨fun hc hrecent => hnone _ hrecent fun a ha => Or.inr ⟨ha, hc⟩,
    fun hc hrecent => hnone _ hrecent fun a ha => Or.inl ⟨ha, hc⟩⟩

/-- The stream of a session that has made the calls `before` on a file of the given bytes. -/
structure Follows (bytes : List UInt8) (drains : Nat → Nat) (before : List Call) (s : Stream) (f : OpenFile) :
    Prop where
  file : f = after bytes before
  shown : s.Shows f
  reading : s.mode = .reading → Recent Call.reads before
  writing : s.mode = .writing → Recent Call.writes before
  settled : ∃ synced writes, before = synced ++ writes ∧ Unsynced writes ∧ (after bytes synced).size ≤ s.bytes.length
  undrained : drains = (fun _ => 0) → s.drains = (fun _ => 0) ∧
    ∀ synced writes, before = synced ++ writes → Unsynced writes → s.bytes.length ≤ (after bytes synced).size

variable {bytes : List UInt8} {drains : Nat → Nat} {before : List Call} {s : Stream} {f : OpenFile}

lemma follows_start (bytes : List UInt8) (drains : Nat → Nat) :
    Follows bytes drains [] ⟨bytes, 0, [], .neutral, false, drains⟩ ⟨bytes, 0⟩ where
  file := rfl
  shown := ⟨rfl, rfl, by simp, by simp⟩
  reading := by simp
  writing := by simp
  settled := ⟨[], [], rfl, by simp [Unsynced], Nat.le_refl _⟩
  undrained := by
    refine fun hzero => ⟨hzero, fun synced writes hsplit _ => ?_⟩
    obtain ⟨rfl, -⟩ := List.append_eq_nil_iff.1 hsplit.symm
    exact Nat.le_refl _

lemma Stream.Shows.size_le (h : s.Shows f) : s.bytes.length ≤ f.size := by
  rw [OpenFile.size, ← h.contents]
  exact length_le_overwrite _ _ _ _

/-- While the size is settled, all of the file has reached the disk. -/
lemma Follows.size_eq (h : Follows bytes drains before s f) (hsettled : Settled bytes before) :
    s.bytes.length = f.size := by
  obtain ⟨synced, writes, hsplit, hwrites, hle⟩ := h.settled
  have hsize := hsettled synced writes hsplit hwrites
  rw [← h.file] at hsize
  have hge := h.shown.size_le
  omega

lemma Follows.step (h : Follows bytes drains before s f) {c : Call} (hc : Admitted before c) :
    ∃ r s', Stdio.step s c = some (r, s') ∧ Follows bytes drains (before ++ [c]) s' (contract f c).2 ∧
      (c.Plain → (c = .filesize → Settled bytes before) → r = (contract f c).1) := by
  obtain ⟨r, s', hstep, hs⟩ := h.shown.step c (fun hreads hmode => hc.1 hreads (h.writing hmode))
    (fun hwrites hmode => hc.2 hwrites (h.reading hmode))
  refine ⟨r, s', hstep, ⟨by rw [after_snoc, h.file], hs.shown, fun hmode => ?_, fun hmode => ?_, ?_, fun hzero => ?_⟩,
    fun hplain hsize => hs.result hplain fun heq => h.size_eq (hsize heq)⟩
  · cases hs.reading hmode with
    | inl hreads => exact Recent.last hreads
    | inr hkept => exact (h.reading hkept.2).snoc hkept.1
  · cases hs.writing hmode with
    | inl hwrites => exact Recent.last hwrites
    | inr hkept => exact (h.writing hkept.2).snoc hkept.1
  · by_cases hsyncs : c.syncs = true
    · refine ⟨before ++ [c], [], by simp, by simp [Unsynced], ?_⟩
      rw [after_snoc, ← h.file, hs.synced hsyncs]
      exact Nat.le_refl _
    · obtain ⟨synced, writes, rfl, hwrites, hle⟩ := h.settled
      exact ⟨synced, writes ++ [c], by simp, hwrites.snoc (by simpa using hsyncs), Nat.le_trans hle hs.grown⟩
  · obtain ⟨hdrains, hbound⟩ := h.undrained hzero
    refine ⟨(hs.undrained hdrains).1, fun synced writes hsplit hwrites => ?_⟩
    cases writes using List.reverseRecOn with
    | nil =>
      rw [List.append_nil] at hsplit
      rw [← hsplit, after_snoc, ← h.file]
      exact hs.shown.size_le
    | append_singleton writes d =>
      rw [← List.append_assoc] at hsplit
      obtain ⟨hbefore, hd⟩ := List.append_inj' hsplit rfl
      rw [List.singleton_inj] at hd
      have hsyncs : c.syncs = false := hwrites c (by simp [hd])
      rw [(hs.undrained hdrains).2 hsyncs]
      exact hbound synced writes hbefore fun e he => hwrites e (List.mem_append_left _ he)

/-- A separated session runs through, and its stream and the contract's file go together. -/
lemma Separated.follows {calls : List Call} (h : Separated calls) (bytes : List UInt8) (drains : Nat → Nat)
    {before rest : List Call} (hcalls : calls = before ++ rest) :
    ∃ rs s rs' f, Session.run Stdio.step ⟨bytes, 0, [], .neutral, false, drains⟩ before = some (rs, s) ∧
      Session.run Contract.step ⟨bytes, 0⟩ before = some (rs', f) ∧ Follows bytes drains before s f := by
  have hstep : ∀ before c s f, Admitted before c → Follows bytes drains before s f → ∃ r t r' t',
      Stdio.step s c = some (r, t) ∧ Contract.step f c = some (r', t') ∧ True ∧
        Follows bytes drains (before ++ [c]) t t' := by
    intro before c s f hc hf
    obtain ⟨r, s', hstep, hf', -⟩ := hf.step hc
    exact ⟨r, s', _, _, hstep, rfl, trivial, hf'⟩
  have hadmitted : ∀ b c a, before = b ++ c :: a → Admitted ([] ++ b) c := by
    intro b c a hbefore
    have hsplit : calls = b ++ c :: (a ++ rest) := by rw [hcalls, hbefore]; simp
    exact h.admitted hsplit
  obtain ⟨rs, s, rs', f, hrun, hrun', -, hfollows⟩ :=
    Session.run_related (fun _ _ => True) (Follows bytes drains) Admitted hstep before (follows_start bytes drains)
      hadmitted
  exact ⟨rs, s, rs', f, hrun, hrun', hfollows⟩

lemma naive_session {calls : List Call} (hplain : ∀ c ∈ calls, c.Plain) (bytes : List UInt8) :
    Naive.session bytes calls = Contract.session bytes calls := by
  have hstep : ∀ (before : List Call) c (f f' : OpenFile), c.Plain → f = f' →
      ∃ r t t', Naive.step f c = some (r, t) ∧ Contract.step f' c = some (r, t') ∧ t = t' := by
    rintro before c f - hc rfl
    exact ⟨_, _, _, naive_step f hc, rfl, rfl⟩
  have hplain' : ∀ b c a, calls = b ++ c :: a → c.Plain := fun b c a hcalls => hplain c (by rw [hcalls]; simp)
  obtain ⟨rs, f, f', hrun, hrun', hf⟩ :=
    @Session.run_alike _ _ _ _ Naive.step Contract.step (fun _ f f' => f = f') (fun _ c => c.Plain) hstep calls []
      ⟨bytes, 0⟩ ⟨bytes, 0⟩ rfl hplain'
  rw [Naive.session, Contract.session, hrun, hrun', hf]
  rfl

lemma stdio_session {calls : List Call} (h : Separated calls) {bytes : List UInt8} (hportable : Portable bytes calls)
    (drains : Nat → Nat) : Stdio.session drains bytes calls = Contract.session bytes calls := by
  have hstep : ∀ before c s f, (Admitted before c ∧ c.Plain ∧ (c = .filesize → Settled bytes before)) →
      Follows bytes drains before s f → ∃ r t t', Stdio.step s c = some (r, t) ∧ Contract.step f c = some (r, t') ∧
        Follows bytes drains (before ++ [c]) t t' := by
    rintro before c s f ⟨hadmitted, hplain, hsize⟩ hf
    obtain ⟨r, s', hstep, hf', hr⟩ := hf.step hadmitted
    exact ⟨r, s', _, hstep, by rw [Contract.step, hr hplain hsize], hf'⟩
  have hok : ∀ b c a, calls = b ++ c :: a →
      Admitted b c ∧ c.Plain ∧ (c = .filesize → Settled bytes b) := by
    intro b c a hcalls
    refine ⟨h.admitted hcalls, hportable.1 c (by rw [hcalls]; simp), ?_⟩
    rintro rfl
    exact hportable.2 b a hcalls
  obtain ⟨rs, s, f, hrun, hrun', hfollows⟩ :=
    Session.run_alike (Follows bytes drains) _ hstep calls (follows_start bytes drains) hok
  rw [Stdio.session, Contract.session, hrun, hrun']
  simp only [Option.map_some, Stdio.io300Close, Stdio.io300Flush]
  rw [hfollows.shown.fflush.fflush_bytes]

lemma Contract.step_result {f f' : OpenFile} {c : Call} {r : Result} (h : Contract.step f c = some (r, f')) :
    r = (contract f c).1 := by
  rw [Contract.step, Option.some.injEq] at h
  rw [h]

lemma session_run {σ : Type} {step : σ → Call → Option (Result × σ)} {start : σ} {calls : List Call}
    {close : σ → List UInt8} {results : List Result} {final : List UInt8}
    (h : (Session.run step start calls).map (fun (results, s) => (results, close s)) = some (results, final)) :
    ∃ s, Session.run step start calls = some (results, s) := by
  rw [Option.map_eq_some_iff] at h
  obtain ⟨⟨rs, s⟩, hrun, hrs⟩ := h
  rw [Prod.mk.injEq] at hrs
  exact ⟨s, by rw [hrun, hrs.1]⟩

/-- No seek of the stdio implementation returns the offset, and no write of the naive one the byte. -/
lemma Interchangeable.plain {bytes : List UInt8} {calls : List Call} (h : Interchangeable bytes calls) :
    ∀ c ∈ calls, c.Plain := by
  intro c hc
  obtain ⟨before, rest, rfl⟩ := List.append_of_mem hc
  obtain ⟨⟨results, final⟩, hcontract, hnaive, hstdio⟩ := h
  obtain ⟨f, hcontract⟩ := session_run hcontract
  cases c with
  | seek pos =>
    obtain ⟨s, hstdio⟩ := session_run (hstdio fun _ => 0)
    obtain ⟨_, s₁, _, f₁, r, _, _, -, -, hstep, hstep'⟩ := Session.answer_eq hstdio hcontract
    have hr := Contract.step_result hstep'
    simp only [Stdio.step, Option.some.injEq, Prod.mk.injEq] at hstep
    rw [← hstep.1, contract, Result.mk.injEq] at hr
    exact (Int.ofNat_eq_zero.1 hr.1.symm)
  | writec ch =>
    obtain ⟨f', hnaive⟩ := session_run hnaive
    obtain ⟨_, s₁, _, f₁, r, _, _, -, -, hstep, hstep'⟩ := Session.answer_eq hnaive hcontract
    have hr := Contract.step_result hstep'
    simp only [Naive.step, Option.some.injEq, Prod.mk.injEq] at hstep
    rw [← hstep.1, contract, Result.mk.injEq] at hr
    exact byteOf_plain hr.1.symm
  | _ => trivial

/-- A library that writes nothing before it has to shows the size of the file at the last seek or
flush. -/
lemma Interchangeable.settled {bytes : List UInt8} {calls before rest : List Call} (hsep : Separated calls)
    (h : Interchangeable bytes calls) (hcalls : calls = before ++ .filesize :: rest) : Settled bytes before := by
  obtain ⟨⟨results, final⟩, hcontract, -, hstdio⟩ := h
  obtain ⟨f, hcontract⟩ := session_run hcontract
  obtain ⟨s, hstdio⟩ := session_run (hstdio fun _ => 0)
  rw [hcalls] at hcontract hstdio
  obtain ⟨rs, s₁, rs', f₁, r, _, _, hrun, hrun', hstep, hstep'⟩ := Session.answer_eq hstdio hcontract
  obtain ⟨_, _, _, _, hs, hf, hfollows⟩ := hsep.follows bytes (fun _ => 0) hcalls
  rw [hs, Option.some.injEq, Prod.mk.injEq] at hrun
  rw [hf, Option.some.injEq, Prod.mk.injEq] at hrun'
  rw [hrun.2, hrun'.2] at hfollows
  have hr := Contract.step_result hstep'
  simp only [Stdio.step, Option.some.injEq, Prod.mk.injEq] at hstep
  rw [← hstep.1, contract, Result.mk.injEq, Stdio.io300Filesize] at hr
  intro synced writes hsplit hwrites
  have hle := (hfollows.undrained rfl).2 synced writes hsplit hwrites
  have hgrown : (after bytes synced).size ≤ (after bytes before).size := by
    rw [hsplit]
    exact after_size_le bytes synced writes
  rw [← hfollows.file] at hgrown ⊢
  have hsize := hr.1
  omega

/-- The implementations are interchangeable in a separated session if and only if it is portable. -/
theorem interchangeable_iff (bytes : List UInt8) {calls : List Call} (hsep : Separated calls) :
    Interchangeable bytes calls ↔ Portable bytes calls := by
  constructor
  · exact fun h => ⟨h.plain, fun before rest hcalls => h.settled hsep hcalls⟩
  · intro hportable
    obtain ⟨rs, s, rs', f, -, hrun, -⟩ := hsep.follows bytes (fun _ => 0) (List.append_nil calls).symm
    refine ⟨(rs', f.bytes), by rw [Contract.session, hrun, Option.map_some], ?_, fun drains => ?_⟩
    · rw [naive_session hportable.1, Contract.session, hrun, Option.map_some]
    · rw [stdio_session hsep hportable, Contract.session, hrun, Option.map_some]

/-- Two bytes are written, and read back after a seek to the beginning. -/
theorem interchangeable_sample : Interchangeable [] [.write [1, 2], .seek 0, .filesize, .readc] := by
  rw [interchangeable_iff [] (separated_of_check (by decide))]
  refine ⟨by simp [Call.Plain], fun before rest hcalls => ?_⟩
  have hbefore : before = [.write [1, 2]] ++ [.seek 0] := by
    simp [List.cons_eq_append_iff] at hcalls
    exact hcalls.1
  rw [hbefore]
  exact settled_of_syncs rfl

/-- A seek to the fifth byte returns 5 in the naive implementation and 0 in the one over stdio. -/
theorem not_interchangeable :
    ¬∀ (bytes : List UInt8) (calls : List Call), Separated calls → Interchangeable bytes calls := by
  intro h
  have hplain := (h [] [.seek 5] (separated_of_check (by decide))).plain (.seek 5) (by simp)
  exact absurd hplain (by simp [Call.Plain])

end Cs300Projects.Fileio
