import Tapline.Proofs.Meaning

/-!
# Names on the bus

On the bus a tap is known by its target and index, and the target of a job has the word
`job` in front of it.  A stream may have that word as the first segment of its own name.
So a tap into a job has the bus name of a tap into some stream, and apart from this no two
taps with different meanings share one.
-/

namespace Tapline

namespace Channel

/-- The first channel taps a stream whose name is the word `job` and then the name of the
job that the second one taps. -/
structure PosesAs (stream job : Channel) : Prop where
  stream_kind : stream.kind = .tap .stream
  job_kind : job.kind = .tap .job
  target_eq : stream.target = Kind.job.word :: job.target
  index_eq : stream.index = job.index

/-- The channel is a tap, and the source of a pipeline that was read from some text. -/
def IsTapSource (channel : Channel) : Prop :=
  channel.kind.isTap = true ∧ ∃ kind text found,
    Pipeline.parse kind text = .ok found ∧ found.source = some channel

theorem IsTapSource.wellFormed {channel : Channel} (isTapSource : channel.IsTapSource) :
    channel.meaning.WellFormed := by
  obtain ⟨-, kind, text, found, read, source⟩ := isTapSource
  exact (Pipeline.wellFormed_of_parse read).of_mem_source channel source

theorem IsTapSource.exists_kind {channel : Channel} (isTapSource : channel.IsTapSource) :
    ∃ target, channel.kind = .tap target := by
  have isTap := isTapSource.1
  cases kind : channel.kind with
  | tap target => exact ⟨target, rfl⟩
  | _ =>
      rw [kind] at isTap
      cases isTap

/-- A pipeline with nothing but the source and one module. -/
def intoLog (channel : Channel) : Pipeline :=
  ⟨none, some channel, [⟨"log", none, [], .origin⟩], none, .origin⟩

private theorem wellFormed_intoLog {channel : Channel} (wellFormed : channel.meaning.WellFormed) :
    channel.intoLog.meaning.WellFormed := by
  have isWord : Text.IsWord "log".toList := by decide
  apply Pipeline.Meaning.wellFormed_single
  · simpa [intoLog] using wellFormed
  · constructor
    · exact isWord
    · simp [Module.meaning]
    · simp [Module.meaning]
    · simp [Module.meaning]
    · simp [Module.meaning]
    · simp [Module.meaning]

theorem sameMeaning_iff_qualifiedName_eq {left right : Channel}
    (leftWellFormed : left.meaning.WellFormed)
    (rightWellFormed : right.meaning.WellFormed) :
    left.SameMeaning right ↔ left.qualifiedName = right.qualifiedName := by
  constructor
  · exact SameMeaning.qualifiedName_eq
  · intro names
    have texts : left.intoLog.text = right.intoLog.text := by
      simp only [intoLog, Pipeline.text, Pipeline.render, render, names]
    have same := Pipeline.sameMeaning_of_text_eq (wellFormed_intoLog leftWellFormed)
      (wellFormed_intoLog rightWellFormed) texts
    exact Option.some.inj (congrArg Pipeline.Meaning.source same)

/-- The tap into a stream that has the bus name of the tap. -/
def onBus (channel : Channel) : Channel :=
  match channel.kind with
  | .tap .job =>
      ⟨.tap .stream, Kind.stream.word :: Kind.job.word :: channel.target, channel.index,
        channel.span⟩
  | _ => channel

private theorem onBus_of_stream {channel : Channel} (kind : channel.kind = .tap .stream) :
    channel.onBus = channel := by
  simp only [onBus, kind]

private theorem meaning_onBus_of_job {channel : Channel} (kind : channel.kind = .tap .job) :
    channel.onBus.meaning =
      ⟨.tap .stream, Kind.job.word :: channel.target, channel.index⟩ := by
  simp only [onBus, kind]
  rfl

theorem WellFormed.onBus {channel : Channel} {target : Kind}
    (kind : channel.kind = .tap target) (wellFormed : channel.meaning.WellFormed) :
    channel.onBus.meaning.WellFormed := by
  cases target with
  | stream => rwa [onBus_of_stream kind]
  | job =>
      have isWord : Text.IsWord Kind.job.word.toList := by decide
      rw [meaning_onBus_of_job kind]
      constructor
      · exact List.cons_ne_nil _ _
      · exact List.forall_mem_cons.mpr ⟨.inl isWord, wellFormed.target_isSegment⟩
      · exact wellFormed.index_isSegment
      · exact wellFormed.index_length_le
      · exact fun _ => rfl

/-- The bus name of a tap and the full reference of the tap into a stream differ in how they
begin, and in nothing else. -/
theorem exists_reference {channel : Channel} {target : Kind}
    (kind : channel.kind = .tap target) (named : channel.target ≠ []) :
    ∃ reference, channel.busName = "tap:" ++ reference ∧
      channel.onBus.qualifiedName = "tap:stream:" ++ reference := by
  cases target with
  | stream =>
      refine ⟨channel.targetName ++ channel.indexText, ?_, ?_⟩
      · rw [busName, kind, String.append_assoc]
        rfl
      · rw [onBus_of_stream kind, qualifiedName, kind, String.append_assoc]
        rfl
  | job =>
      have fullTarget : channel.onBus.targetName = "job:" ++ channel.targetName := by
        have target := congrArg Meaning.target (meaning_onBus_of_job kind)
        rw [targetName, show channel.onBus.target = _ from target,
          String.intercalate_cons_of_ne_nil named]
        rfl
      have sameIndex : channel.onBus.indexText = channel.indexText := by
        have index := congrArg Meaning.index (meaning_onBus_of_job kind)
        rw [indexText, show channel.onBus.index = _ from index, indexText]
      have onStream : channel.onBus.kind = .tap .stream :=
        congrArg Meaning.kind (meaning_onBus_of_job kind)
      refine ⟨"job:" ++ (channel.targetName ++ channel.indexText), ?_, ?_⟩
      · rw [busName, kind, String.append_assoc, ← String.append_assoc]
        rfl
      · rw [qualifiedName, onStream, fullTarget, sameIndex, String.append_assoc,
          String.append_assoc]
        rfl

/-- Bus names are those of taps into streams, and these are told apart. -/
theorem busName_eq_iff_onBus {left right : Channel} {leftTarget rightTarget : Kind}
    (leftKind : left.kind = .tap leftTarget) (rightKind : right.kind = .tap rightTarget)
    (leftWellFormed : left.meaning.WellFormed)
    (rightWellFormed : right.meaning.WellFormed) :
    left.busName = right.busName ↔ left.onBus.SameMeaning right.onBus := by
  obtain ⟨one, oneName, oneFull⟩ := exists_reference leftKind leftWellFormed.target_ne_nil
  obtain ⟨other, otherName, otherFull⟩ :=
    exists_reference rightKind rightWellFormed.target_ne_nil
  rw [sameMeaning_iff_qualifiedName_eq (WellFormed.onBus leftKind leftWellFormed)
    (WellFormed.onBus rightKind rightWellFormed), oneName, otherName, oneFull, otherFull,
    String.append_right_inj, String.append_right_inj]

theorem posesAs_iff {stream job : Channel} (kind : job.kind = .tap .job) :
    stream.PosesAs job ↔ stream.SameMeaning job.onBus := by
  unfold SameMeaning
  rw [meaning_onBus_of_job kind, meaning, Meaning.mk.injEq]
  constructor
  · rintro ⟨streamKind, -, target, index⟩
    exact ⟨streamKind, target, index⟩
  · rintro ⟨streamKind, target, index⟩
    exact ⟨streamKind, kind, target, index⟩

private theorem not_posesAs_of_job {stream job : Channel} (kind : stream.kind = .tap .job) :
    ¬stream.PosesAs job := by
  intro poses
  cases kind.symm.trans poses.stream_kind

private theorem not_posesAs_of_stream {stream job : Channel} (kind : job.kind = .tap .stream) :
    ¬stream.PosesAs job := by
  intro poses
  cases kind.symm.trans poses.job_kind

theorem sameMeaning_onBus_iff_of_kind {left right : Channel} {target : Kind}
    (leftKind : left.kind = .tap target) (rightKind : right.kind = .tap target) :
    left.onBus.SameMeaning right.onBus ↔ left.SameMeaning right := by
  cases target with
  | stream => rw [onBus_of_stream leftKind, onBus_of_stream rightKind]
  | job =>
      unfold SameMeaning
      rw [meaning_onBus_of_job leftKind, meaning_onBus_of_job rightKind]
      simp [meaning, leftKind, rightKind]

theorem sameMeaning_onBus_iff_posesAs {stream job : Channel}
    (streamKind : stream.kind = .tap .stream) (jobKind : job.kind = .tap .job) :
    stream.onBus.SameMeaning job.onBus ↔ stream.PosesAs job := by
  rw [onBus_of_stream streamKind, posesAs_iff jobKind]

theorem sameMeaning_onBus_iff {left right : Channel} {leftTarget rightTarget : Kind}
    (leftKind : left.kind = .tap leftTarget) (rightKind : right.kind = .tap rightTarget) :
    left.onBus.SameMeaning right.onBus ↔
      left.SameMeaning right ∨ left.PosesAs right ∨ right.PosesAs left := by
  have kinds (same : left.SameMeaning right) : leftTarget = rightTarget := by
    have equal : left.kind = right.kind := (congrArg Meaning.kind same :)
    rw [leftKind, rightKind] at equal
    exact ChannelKind.tap.inj equal
  cases leftTarget with
  | stream =>
      have left_no_job : ¬right.PosesAs left := not_posesAs_of_stream leftKind
      cases rightTarget with
      | stream =>
          rw [sameMeaning_onBus_iff_of_kind leftKind rightKind]
          simp [left_no_job, not_posesAs_of_stream rightKind]
      | job =>
          rw [sameMeaning_onBus_iff_posesAs leftKind rightKind]
          simp [left_no_job, show ¬left.SameMeaning right from nofun ∘ kinds]
  | job =>
      have left_no_stream : ¬left.PosesAs right := not_posesAs_of_job leftKind
      cases rightTarget with
      | stream =>
          have turned : left.onBus.SameMeaning right.onBus ↔
              right.onBus.SameMeaning left.onBus := eq_comm
          rw [turned, sameMeaning_onBus_iff_posesAs rightKind leftKind]
          simp [left_no_stream, show ¬left.SameMeaning right from nofun ∘ kinds]
      | job =>
          rw [sameMeaning_onBus_iff_of_kind leftKind rightKind]
          simp [left_no_stream, not_posesAs_of_job rightKind]

theorem exists_isTapSource {channel : Channel} (isTap : channel.kind.isTap = true)
    (wellFormed : channel.meaning.WellFormed) :
    ∃ source : Channel, source.IsTapSource ∧ source.SameMeaning channel := by
  obtain ⟨again, read, same⟩ := Pipeline.exists_read_text (wellFormed_intoLog wellFormed)
  have sources : some channel.meaning = again.source.map Channel.meaning :=
    congrArg Pipeline.Meaning.source same
  obtain ⟨source, present, meaning⟩ := Option.map_eq_some_iff.mp sources.symm
  have kind : source.kind = channel.kind := (congrArg Meaning.kind meaning :)
  exact ⟨source, ⟨by rwa [kind], .stream, _, again, read, present⟩, meaning⟩

/-- Two taps that are the sources of accepted texts have one bus name exactly if they mean
the same, or if one taps a stream that is called like the job that the other taps, with the
word `job` in front.  There is such a stream, and a text that taps it, for every job. -/
theorem busName_eq_iff (left right : Channel) (leftSource : left.IsTapSource)
    (rightSource : right.IsTapSource) :
    (left.busName = right.busName ↔
      left.SameMeaning right ∨ left.PosesAs right ∨ right.PosesAs left) ∧
    (right.kind = .tap .job →
      ∃ stream : Channel, stream.IsTapSource ∧ stream.PosesAs right) := by
  obtain ⟨leftTarget, leftKind⟩ := leftSource.exists_kind
  obtain ⟨rightTarget, rightKind⟩ := rightSource.exists_kind
  constructor
  · rw [busName_eq_iff_onBus leftKind rightKind leftSource.wellFormed
      rightSource.wellFormed, sameMeaning_onBus_iff leftKind rightKind]
  · intro isJob
    have onStream : right.onBus.kind = .tap .stream :=
      congrArg Meaning.kind (meaning_onBus_of_job isJob)
    have isTap : right.onBus.kind.isTap = true := by
      rw [onStream]
      rfl
    obtain ⟨stream, streamSource, same⟩ :=
      exists_isTapSource isTap (WellFormed.onBus isJob rightSource.wellFormed)
    exact ⟨stream, streamSource, (posesAs_iff isJob).mpr same⟩

/-- Echoes in other letters, a stream whose name begins with the word for jobs twice, and a
number at the end of a name that is no index. -/
theorem busName_eq_iff_nested :
    let nested : Channel := ⟨.tap .stream, ["STREAM", "job", "job", "main"], ["2"], ⟨0, 25⟩⟩
    let job : Channel := ⟨.tap .job, ["Job", "job", "main"], ["2"], ⟨0, 18⟩⟩
    let numbered : Channel := ⟨.tap .job, ["Job", "job", "main", "2"], [], ⟨0, 18⟩⟩
    (nested.IsTapSource ∧ job.IsTapSource ∧ nested.busName = job.busName) ∧
      (numbered.IsTapSource ∧ nested.busName ≠ numbered.busName) ∧
        job.kind = .tap .job ∧
          ∃ stream : Channel, stream.IsTapSource ∧ stream.PosesAs job := by
  intro nested job numbered
  have source (text : String) {channel : Channel} (isTap : channel.kind.isTap = true)
      (read : (Pipeline.parse .stream text).toOption.bind Pipeline.source = some channel) :
      channel.IsTapSource := by
    obtain ⟨found, succeeds, present⟩ := Option.bind_eq_some_iff.mp read
    exact ⟨isTap, .stream, text, found, eq_ok_of_toOption succeeds, present⟩
  have nestedSource : nested.IsTapSource :=
    source "tap:STREAM:job:job:main.2 > log" rfl (by decide +kernel)
  have jobSource : job.IsTapSource :=
    source "tap:Job:job:main.2 > log" rfl (by decide +kernel)
  have numberedSource : numbered.IsTapSource :=
    source "tap:Job:job:main:2 > log" rfl (by decide +kernel)
  obtain ⟨sharedName, posing⟩ := busName_eq_iff nested job nestedSource jobSource
  have apart := (busName_eq_iff nested numbered nestedSource numberedSource).1
  refine ⟨⟨nestedSource, jobSource, ?_⟩, ⟨numberedSource, ?_⟩, rfl, posing rfl⟩
  · have poses : nested.PosesAs job := ⟨rfl, rfl, by decide +kernel, rfl⟩
    exact sharedName.mpr (.inr (.inl poses))
  · rw [Ne, apart]
    rintro (same | poses | poses)
    · exact absurd same (by decide +kernel)
    · exact absurd poses.index_eq (by decide)
    · exact absurd poses.stream_kind (by decide)

/-- A stream called `job:main` and a job called `main` are tapped under one bus name. -/
theorem busName_eq_iff_jobMain :
    let stream : Channel := ⟨.tap .stream, ["stream", "job", "main"], [], ⟨0, 19⟩⟩
    let job : Channel := ⟨.tap .job, ["job", "main"], [], ⟨0, 12⟩⟩
    (Pipeline.parse .stream "tap:stream:job:main > log").toOption.bind Pipeline.source =
        some stream ∧
      (Pipeline.parse .stream "tap:job:main > log").toOption.bind Pipeline.source =
        some job ∧
      stream.kind.isTap = true ∧ job.kind.isTap = true ∧
        stream.busName = "tap:job:main" ∧ job.busName = "tap:job:main" ∧
          ¬stream.SameMeaning job := by
  decide +kernel

end Channel

end Tapline
