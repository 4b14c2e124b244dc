import Cs300Projects.Fileio.Calls

/-!
# What a stream shows of its file

The bytes of the file with the pending bytes written over them are what the program believes to be
in the file. Each operation on a stream is the operation of the contract on these bytes.
-/

namespace Cs300Projects.Fileio

lemma OpenFile.read_one (f : OpenFile) : (f.read 1).1 = f.bytes[f.offset]?.toList := by
  rw [OpenFile.read, List.take_one, List.head?_drop]

namespace Stream

variable {s : Stream} {f : OpenFile}

/-- The stream with what is pending in it looks like the open file. -/
structure Shows (s : Stream) (f : OpenFile) : Prop where
  contents : overwrite 0 s.bytes s.position s.pending = f.bytes
  position : s.position + s.pending.length = f.offset
  eof : s.eof = true → f.bytes.length ≤ f.offset
  pending : s.pending ≠ [] → s.mode = .writing

@[simp] lemma drain_contents (s : Stream) (n : Nat) :
    overwrite 0 (s.drain n).bytes (s.drain n).position (s.drain n).pending = overwrite 0 s.bytes s.position s.pending := by
  simp only [drain]
  rw [overwrite_append, List.take_append_drop]

@[simp] lemma drain_position (s : Stream) (n : Nat) :
    (s.drain n).position + (s.drain n).pending.length = s.position + s.pending.length := by
  simp only [drain, List.length_take, List.length_drop]
  omega

@[simp] lemma drain_zero (s : Stream) : s.drain 0 = s := by
  simp [drain]

lemma drain_length_le (s : Stream) (n : Nat) : s.bytes.length ≤ (s.drain n).bytes.length :=
  length_le_overwrite _ _ _ _

@[simp] lemma fflush_pending (s : Stream) : s.fflush.pending = [] := by
  simp [fflush, drain]

lemma Shows.bytes_of_idle (h : s.Shows f) (hmode : s.mode ≠ .writing) :
    s.pending = [] ∧ s.bytes = f.bytes ∧ s.position = f.offset := by
  have hpending : s.pending = [] := by
    by_contra hne
    exact hmode (h.pending hne)
  have hcontents := h.contents
  have hposition := h.position
  rw [hpending] at hcontents hposition
  exact ⟨hpending, hcontents, hposition⟩

lemma Shows.fflush (h : s.Shows f) : s.fflush.Shows f where
  contents := (drain_contents s _).trans h.contents
  position := (drain_position s _).trans h.position
  eof := h.eof
  pending := fun hne => absurd s.fflush_pending hne

lemma Shows.fflush_bytes (h : s.Shows f) : s.fflush.bytes = f.bytes := by
  have hcontents := h.fflush.contents
  rwa [fflush_pending, overwrite_nil] at hcontents

lemma Shows.fseek (h : s.Shows f) (pos : Nat) : (s.fseek pos).Shows (contract f (.seek pos)).2 where
  contents := by simpa [Stream.fseek, contract] using h.fflush_bytes
  position := by simp [Stream.fseek, contract]
  eof := by simp [Stream.fseek]
  pending := by simp [Stream.fseek]

/-- The end-of-file indicator is only set where there is nothing left to read. -/
lemma Shows.fread (h : s.Shows f) (n : Nat) (hmode : s.mode ≠ .writing) :
    ∃ s', s.fread n = some ((f.read n).1, s') ∧ s'.Shows (f.read n).2 ∧ s'.bytes = s.bytes ∧
      s'.drains = s.drains ∧ s'.mode ≠ .writing := by
  obtain ⟨hpending, hbytes, hposition⟩ := h.bytes_of_idle hmode
  unfold Stream.fread
  by_cases hn : n = 0
  · rw [if_pos hn, hn]
    refine ⟨s, by simp [OpenFile.read], ?_, rfl, rfl, hmode⟩
    simpa [OpenFile.read] using h
  · rw [if_neg hn, if_neg hmode]
    have hdata : (if s.eof then [] else (s.bytes.drop s.position).take n) = (f.read n).1 := by
      rw [hbytes, hposition]
      by_cases heof : s.eof = true
      · rw [if_pos heof, OpenFile.read, List.drop_eq_nil_of_le (h.eof heof), List.take_nil]
      · rw [if_neg heof, OpenFile.read]
    simp only [hdata]
    refine ⟨_, rfl, ⟨?_, ?_, fun hshort => ?_, fun hne => absurd hpending hne⟩, rfl, rfl, by simp⟩
    · rw [hpending]
      exact hbytes
    · simp [hpending, hposition, OpenFile.read]
    · rw [decide_eq_true_eq] at hshort
      simp only [OpenFile.read, List.length_take, List.length_drop] at hshort ⊢
      omega

lemma Shows.fwrite (h : s.Shows f) (data : List UInt8) (hmode : s.mode ≠ .reading) :
    ∃ s', s.fwrite data = some (data.length, s') ∧ s'.Shows (f.write data).2 ∧ s'.mode ≠ .reading ∧
      s.bytes.length ≤ s'.bytes.length ∧ (s.drains = (fun _ => 0) → s'.bytes = s.bytes ∧ s'.drains = fun _ => 0) := by
  unfold Stream.fwrite
  by_cases hdata : data = []
  · rw [if_pos hdata, hdata]
    refine ⟨s, rfl, ?_, hmode, Nat.le_refl _, fun hdrains => ⟨rfl, hdrains⟩⟩
    simpa [OpenFile.write] using h
  · rw [if_neg hdata, if_neg hmode]
    refine ⟨_, rfl, ⟨?_, ?_, fun heof => ?_, fun _ => rfl⟩, by simp [drain],
      drain_length_le { s with pending := s.pending ++ data } _, fun hdrains => ?_⟩
    · rw [drain_contents, OpenFile.write, ← overwrite_append, h.contents, h.position]
    · rw [drain_position, OpenFile.write, List.length_append, ← Nat.add_assoc, h.position]
    · have hle := h.eof heof
      simp only [OpenFile.write]
      rw [length_overwrite _ _ _ hdata]
      omega
    · simp [hdrains]

end Stream

/-- The arguments for which both implementations return what the contract says: a seek to the
beginning, and a character that is a byte. -/
def Call.Plain : Call → Prop
  | .seek pos => pos = 0
  | .writec ch => ch.toNat < 256
  | _ => True

/-- The sign bit of a byte's `int` is clear, and it is the byte that is written. -/
lemma byteOf_toNat {ch : BitVec 32} (h : ch.toNat < 256) : ((byteOf ch).toNat : Int) = ch.toInt := by
  have hlow : ch.toInt = ch.toNat := by
    rw [BitVec.toInt_eq_toNat_of_lt (by omega)]
  rw [hlow, byteOf, UInt8.toNat_ofNat']
  omega

lemma byteOf_plain {ch : BitVec 32} (h : ((byteOf ch).toNat : Int) = ch.toInt) : ch.toNat < 256 := by
  have hbyte : (byteOf ch).toNat < 256 := (byteOf ch).toNat_lt
  have hint := BitVec.toInt_eq_toNat_cond ch
  have hlt := ch.isLt
  by_cases hsign : 2 * ch.toNat < 2 ^ 32
  · rw [if_pos hsign] at hint
    omega
  · rw [if_neg hsign] at hint
    omega

/-- The system calls do what the contract says, so that only the returned values can differ. -/
lemma naive_step (f : OpenFile) {c : Call} (hplain : c.Plain) : Naive.step f c = some (contract f c) := by
  cases c with
  | seek pos =>
    have hpos : pos = 0 := hplain
    rw [hpos]
    rfl
  | readc =>
    have hread := f.read_one
    cases hc : f.bytes[f.offset]? with
    | none =>
      have hdata : f.read 1 = ([], f) := by
        rw [hc] at hread
        simp only [OpenFile.read] at hread ⊢
        rw [hread]
        rfl
      simp [Naive.step, Naive.io300Readc, hdata, contract, hc]
    | some c =>
      have hdata : f.read 1 = ([c], { f with offset := f.offset + 1 }) := by
        rw [hc] at hread
        simp only [OpenFile.read] at hread ⊢
        rw [hread]
        rfl
      simp [Naive.step, Naive.io300Readc, hdata, contract, hc]
  | writec ch =>
    have hwrite : f.write [byteOf ch] = (1, (f.write [byteOf ch]).2) := rfl
    simp only [Naive.step, Naive.io300Writec, contract]
    rw [hwrite, byteOf_toNat hplain]
    rfl
  | read sz => rfl
  | write buff => rfl
  | flush => rfl
  | filesize => rfl

/-- What a call does to a stream that shows the file `f`. -/
structure Stream.Stepped (s : Stream) (f : OpenFile) (c : Call) (r : Result) (s' : Stream) : Prop where
  shown : s'.Shows (contract f c).2
  reading : s'.mode = .reading → c.reads = true ∨ (c.syncs = false ∧ s.mode = .reading)
  writing : s'.mode = .writing → c.writes = true ∨ (c.syncs = false ∧ s.mode = .writing)
  grown : s.bytes.length ≤ s'.bytes.length
  synced : c.syncs = true → s'.bytes = (contract f c).2.bytes
  undrained : s.drains = (fun _ => 0) → s'.drains = (fun _ => 0) ∧ (c.syncs = false → s'.bytes = s.bytes)
  result : c.Plain → (c = .filesize → s.bytes.length = f.size) → r = (contract f c).1

namespace Stream

variable {s : Stream} {f : OpenFile}

lemma Shows.step_seek (h : s.Shows f) (pos : Nat) :
    ∃ r s', Stdio.step s (.seek pos) = some (r, s') ∧ Stepped s f (.seek pos) r s' := by
  refine ⟨_, _, rfl, ⟨h.fseek pos, by simp [Stream.fseek, Stream.fflush],
    by simp [Stream.fseek, Stream.fflush], drain_length_le s _, fun _ => h.fflush_bytes,
    fun hdrains => ⟨hdrains, by simp [Call.syncs]⟩, fun hplain _ => ?_⟩⟩
  have hpos : pos = 0 := hplain
  simp [contract, hpos]

lemma Shows.step_flush (h : s.Shows f) : ∃ r s', Stdio.step s .flush = some (r, s') ∧ Stepped s f .flush r s' :=
  ⟨_, _, rfl, ⟨h.fflush, by simp [Stream.fflush], by simp [Stream.fflush],
    drain_length_le s _, fun _ => h.fflush_bytes, fun hdrains => ⟨hdrains, by simp [Call.syncs]⟩, fun _ _ => rfl⟩⟩

lemma Shows.step_filesize (h : s.Shows f) :
    ∃ r s', Stdio.step s .filesize = some (r, s') ∧ Stepped s f .filesize r s' := by
  refine ⟨_, _, rfl, ⟨h, fun hmode => Or.inr ⟨rfl, hmode⟩, fun hmode => Or.inr ⟨rfl, hmode⟩, Nat.le_refl _,
    by simp [Call.syncs], fun hdrains => ⟨hdrains, fun _ => rfl⟩, fun _ hsize => ?_⟩⟩
  simp [Stdio.io300Filesize, contract, hsize]

lemma Shows.step_read (h : s.Shows f) (sz : Nat) (hmode : s.mode ≠ .writing) :
    ∃ r s', Stdio.step s (.read sz) = some (r, s') ∧ Stepped s f (.read sz) r s' := by
  obtain ⟨s', hread, hshown, hbytes, hdrains, hmode'⟩ := h.fread sz hmode
  refine ⟨_, s', by simp [Stdio.step, Stdio.io300Read, hread, Stream.ferror]; rfl, ⟨hshown, fun _ => Or.inl rfl,
    fun hw => absurd hw hmode', hbytes ▸ Nat.le_refl _, by simp [Call.syncs],
    fun hzero => ⟨hdrains.trans hzero, fun _ => hbytes⟩, fun _ _ => rfl⟩⟩

lemma Shows.step_readc (h : s.Shows f) (hmode : s.mode ≠ .writing) :
    ∃ r s', Stdio.step s .readc = some (r, s') ∧ Stepped s f .readc r s' := by
  obtain ⟨s', hread, hshown, hbytes, hdrains, hmode'⟩ := h.fread 1 hmode
  rw [f.read_one] at hread
  have hstepped : ∀ r, (f.read 1).2 = (contract f .readc).2 → r = (contract f .readc).1 → Stepped s f .readc r s' :=
    fun r hfile hr => ⟨hfile ▸ hshown, fun _ => Or.inl rfl, fun hw => absurd hw hmode', hbytes ▸ Nat.le_refl _,
      by simp [Call.syncs], fun hzero => ⟨hdrains.trans hzero, fun _ => hbytes⟩, fun _ _ => hr⟩
  have hdata := f.read_one
  simp only [OpenFile.read] at hdata
  cases hc : f.bytes[f.offset]? with
  | none =>
    rw [hc] at hread hdata
    refine ⟨⟨-1, []⟩, s', by simp [Stdio.step, Stdio.io300Readc, Stream.fgetc, hread], hstepped _ ?_ ?_⟩
    · simp [contract, hc, OpenFile.read, hdata]
    · simp [contract, hc]
  | some c =>
    rw [hc] at hread hdata
    refine ⟨⟨c.toNat, []⟩, s', by simp [Stdio.step, Stdio.io300Readc, Stream.fgetc, hread], hstepped _ ?_ ?_⟩
    · simp [contract, hc, OpenFile.read, hdata]
    · simp [contract, hc]

/-- A write of either kind, of the bytes `data`. -/
lemma Shows.stepped_write {c : Call} {data : List UInt8} {r : Result} {s' : Stream} (hc : c.writes = true)
    (hsyncs : c.syncs = false) (hfile : (contract f c).2 = (f.write data).2) (hr : r = (contract f c).1)
    (hshown : s'.Shows (f.write data).2) (hmode : s'.mode ≠ .reading) (hgrown : s.bytes.length ≤ s'.bytes.length)
    (hundrained : s.drains = (fun _ => 0) → s'.bytes = s.bytes ∧ s'.drains = fun _ => 0) : Stepped s f c r s' where
  shown := hfile ▸ hshown
  reading := fun hreading => absurd hreading hmode
  writing := fun _ => Or.inl hc
  grown := hgrown
  synced := by simp [hsyncs]
  undrained := fun hzero => ⟨(hundrained hzero).2, fun _ => (hundrained hzero).1⟩
  result := fun _ _ => hr

lemma Shows.step_write (h : s.Shows f) (buff : List UInt8) (hmode : s.mode ≠ .reading) :
    ∃ r s', Stdio.step s (.write buff) = some (r, s') ∧ Stepped s f (.write buff) r s' := by
  obtain ⟨s', hwrite, hshown, hmode', hgrown, hundrained⟩ := h.fwrite buff hmode
  exact ⟨⟨buff.length, []⟩, s', by simp [Stdio.step, Stdio.io300Write, hwrite, Stream.ferror],
    stepped_write rfl rfl rfl rfl hshown hmode' hgrown hundrained⟩

lemma Shows.step_writec (h : s.Shows f) (ch : BitVec 32) (hmode : s.mode ≠ .reading) :
    ∃ r s', Stdio.step s (.writec ch) = some (r, s') ∧ Stepped s f (.writec ch) r s' := by
  obtain ⟨s', hwrite, hshown, hmode', hgrown, hundrained⟩ := h.fwrite [byteOf ch] hmode
  exact ⟨⟨(byteOf ch).toNat, []⟩, s', by simp [Stdio.step, Stdio.io300Writec, Stream.fputc, hwrite],
    stepped_write rfl rfl rfl rfl hshown hmode' hgrown hundrained⟩

/-- Every call that the stream's mode admits. -/
theorem Shows.step (h : s.Shows f) (c : Call) (hreads : c.reads = true → s.mode ≠ .writing)
    (hwrites : c.writes = true → s.mode ≠ .reading) :
    ∃ r s', Stdio.step s c = some (r, s') ∧ Stepped s f c r s' := by
  cases c with
  | seek pos => exact h.step_seek pos
  | readc => exact h.step_readc (hreads rfl)
  | writec ch => exact h.step_writec ch (hwrites rfl)
  | read sz => exact h.step_read sz (hreads rfl)
  | write buff => exact h.step_write buff (hwrites rfl)
  | flush => exact h.step_flush
  | filesize => exact h.step_filesize

end Stream

end Cs300Projects.Fileio
