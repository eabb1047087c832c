import SkCoord.Itil.Equiv.Approval
import SkCoord.Itil.Votes

/-!
# The votes on a change

A file holds the last vote that was submitted under its name (`lastIn`), so `get_cab_votes` returns
the last votes of the files that its pattern finds (`mem_getCabVotes_iff`).  These are the last votes
of the voters on the change exactly when the files are `Kept`.
-/

namespace SkCoord.Itil

open Python

variable {env : Env} {F : FloatText} {disk : Disk}

/-! ### One file -/

theorem ofValue?_value (decision : CABDecisionValue) :
    CABDecisionValue.ofValue? decision.value = some decision := by
  cases decision <;> rfl

/-- **A vote is read as it was written**. -/
theorem readVote_content (vote : CABDecision) : readVote env F (vote.content F) = some vote := by
  have hload : Json.loads F ((Json.obj vote.modelDump).pretty F 0 ++ ['\n']) =
      some (.obj vote.modelDump) := by
    rw [Json.loads_pretty]
    rfl
  rw [readVote, CABDecision.content, decodeUtf8_encodeUtf8, Option.bind_some, hload,
    Option.bind_some]
  show (CABDecisionValue.ofValue? vote.decision.value).bind _ = _
  rw [ofValue?_value]
  rfl

/-- The file of a vote, where it can be written. -/
def fileOf (disk : Disk) (vote : CABDecision) : Option FileKey :=
  (disk.place (voteName vote.changeId vote.agent)).toOption

/-- The last vote under the name of a file. -/
def lastIn (disk : Disk) (submitted : List CABDecision) (file : FileKey) : Option CABDecision :=
  (submitted.filter fun vote => fileOf disk vote = some file).getLast?

/-- The last vote of a voter on a change. -/
def lastVote (submitted : List CABDecision) (changeId voter : String) : Option CABDecision :=
  (submitted.filter fun vote => vote.changeId = changeId ∧ vote.agent = voter).getLast?

theorem mem_of_lastIn {submitted : List CABDecision} {file : FileKey} {vote : CABDecision}
    (h : lastIn disk submitted file = some vote) :
    vote ∈ submitted ∧ fileOf disk vote = some file := by
  have hmem := List.mem_filter.mp (List.mem_of_getLast? h)
  exact ⟨hmem.1, of_decide_eq_true hmem.2⟩

theorem mem_of_lastVote {submitted : List CABDecision} {changeId voter : String}
    {vote : CABDecision} (h : lastVote submitted changeId voter = some vote) :
    vote ∈ submitted ∧ vote.changeId = changeId ∧ vote.agent = voter := by
  have hmem := List.mem_filter.mp (List.mem_of_getLast? h)
  exact ⟨hmem.1, of_decide_eq_true hmem.2⟩

/-- A last element of some kind is the last of every kind within. -/
theorem getLast?_filter_of_imp {α : Type} {p q : α → Bool} {l : List α} {a : α}
    (hpq : ∀ b ∈ l, p b = true → q b = true) (h : (l.filter q).getLast? = some a)
    (ha : p a = true) : (l.filter p).getLast? = some a := by
  have hfilter : l.filter p = (l.filter q).filter p := by
    rw [List.filter_filter]
    refine List.filter_congr fun b hb => ?_
    by_cases hp : p b = true
    · rw [hp, hpq b hb hp]
      rfl
    · rw [Bool.eq_false_iff.mpr hp, Bool.false_and]
  obtain ⟨init, hinit⟩ := List.getLast?_eq_some_iff.mp h
  rw [hfilter, hinit, List.filter_append, List.filter_cons, if_pos ha, List.filter_nil,
    List.getLast?_concat]

/-! ### The files -/

/-- What is submitted and what the files hold. -/
structure Ballot.Holds (F : FloatText) (disk : Disk) (b : Ballot) : Prop where
  nodup : (Assoc.keys b.files).Nodup
  placed : ∀ vote ∈ b.submitted, (fileOf disk vote).isSome = true
  files : ∀ file, Assoc.get? b.files file =
    (lastIn disk b.submitted file).map (CABDecision.content F)

theorem holds_nil : Ballot.Holds F disk {} where
  nodup := List.nodup_nil
  placed := fun _ h => (List.not_mem_nil h).elim
  files := fun _ => rfl

/-- **One call** leaves its vote in its file. -/
theorem Ballot.Holds.call {b : Ballot} (h : b.Holds F disk) (call : VoteCall) :
    (b.call env F disk call).Holds F disk := by
  unfold Ballot.call
  split
  · rename_i vote files hsubmit
    obtain ⟨vote', hvote, hsubmit⟩ := bind_eq_ok.mp hsubmit
    obtain ⟨file, hfile, hsubmit⟩ := bind_eq_ok.mp hsubmit
    obtain ⟨rfl, rfl⟩ := Prod.mk.inj (pure_eq_ok.mp hsubmit)
    have hplace : fileOf disk vote' = some file := by
      rw [fileOf, hfile]
      rfl
    refine ⟨Assoc.nodup_keys_set h.nodup _ _, ?_, fun other => ?_⟩
    · intro w hw
      rcases List.mem_append.mp hw with hw | hw
      · exact h.placed w hw
      · rw [List.mem_singleton.mp hw, hplace]
        rfl
    · rw [Assoc.get?_set, lastIn, List.filter_append, List.filter_cons, List.filter_nil]
      by_cases heq : other = file
      · subst heq
        rw [if_pos rfl, if_pos (decide_eq_true hplace), List.getLast?_concat]
        rfl
      · have hne : ¬fileOf disk vote' = some other := by
          rw [hplace]
          exact fun hsame => heq (Option.some.inj hsame).symm
        rw [if_neg heq, if_neg (by simpa using hne), List.append_nil, h.files other]
        rfl
  · exact h

/-- **The files** hold the last votes under their names. -/
theorem holds_after (calls : List VoteCall) : (Ballot.after env F disk calls).Holds F disk := by
  suffices h : ∀ b : Ballot, b.Holds F disk →
      (calls.foldl (Ballot.call env F disk) b).Holds F disk from h {} holds_nil
  induction calls with
  | nil => exact fun b hb => hb
  | cons call calls ih => exact fun b hb => ih _ (hb.call call)

/-- **What is returned**: the last votes of the files that the pattern finds. -/
theorem mem_getCabVotes_iff {b : Ballot} (h : b.Holds F disk) {changeId : String}
    {votes : List CABDecision} (hvotes : getCabVotes env F disk b.files changeId = .ok votes)
    {parts : List String} (hparts : disk.patternParts (votePattern changeId) = .ok parts)
    (vote : CABDecision) : vote ∈ votes ↔
      ∃ file, disk.finds parts file = true ∧ lastIn disk b.submitted file = some vote := by
  rw [getCabVotes, hparts] at hvotes
  rw [← pure_eq_ok.mp hvotes, List.mem_filterMap]
  constructor
  · rintro ⟨⟨file, content⟩, hmem, hread⟩
    obtain ⟨hmem, hfinds⟩ := List.mem_filter.mp hmem
    have hget := Assoc.get?_of_mem h.nodup hmem
    rw [h.files file, Option.map_eq_some_iff] at hget
    obtain ⟨w, hlast, rfl⟩ := hget
    rw [readVote_content] at hread
    exact ⟨file, hfinds, Option.some.inj hread ▸ hlast⟩
  · rintro ⟨file, hfinds, hlast⟩
    have hget : Assoc.get? b.files file = some (vote.content F) := by
      rw [h.files file, hlast]
      rfl
    exact ⟨(file, vote.content F), List.mem_filter.mpr ⟨Assoc.mem_of_get? hget, hfinds⟩,
      readVote_content vote⟩

/-- No vote is returned twice. -/
theorem nodup_getCabVotes {b : Ballot} (h : b.Holds F disk) {changeId : String}
    {votes : List CABDecision} (hvotes : getCabVotes env F disk b.files changeId = .ok votes) :
    votes.Nodup := by
  obtain ⟨parts, -, hvotes⟩ := bind_eq_ok.mp hvotes
  rw [← pure_eq_ok.mp hvotes]
  -- the votes lead back to their files, which are different ones
  refine List.Nodup.of_map (fileOf disk) ?_
  have hfiles : ∀ p ∈ b.files.filter fun p => disk.finds parts p.1,
      (readVote env F p.2).map (fileOf disk) = some (some p.1) := by
    intro p hp
    have hget := Assoc.get?_of_mem h.nodup (List.mem_of_mem_filter hp)
    rw [h.files p.1, Option.map_eq_some_iff] at hget
    obtain ⟨vote, hlast, hcontent⟩ := hget
    rw [← hcontent, readVote_content, Option.map_some, (mem_of_lastIn hlast).2]
  rw [List.map_filterMap, List.filterMap_congr hfiles, List.filterMap_eq_map']
  have hkeys : ((b.files.filter fun p => disk.finds parts p.1).map Prod.fst).Nodup :=
    h.nodup.sublist (List.filter_sublist.map _)
  have hsome := hkeys.map (Option.some_injective FileKey)
  rwa [List.map_map] at hsome

/-! ### The votes on a change -/

/-- The call returns the last vote of each voter on the change, each once and nothing else. -/
def ReturnsLastVotes (submitted : List CABDecision) (changeId : String)
    (returned : Except PyError (List CABDecision)) : Prop :=
  ∃ votes, returned = .ok votes ∧ votes.Nodup ∧
    ∀ vote, vote ∈ votes ↔ lastVote submitted changeId vote.agent = some vote

/-- What a pattern finds was written last for the change, and what was submitted for the change is
found and was written last by the same voter for it. -/
structure KeptIn (disk : Disk) (submitted : List CABDecision) (changeId : String)
    (parts : List String) : Prop where
  own : ∀ file vote, disk.finds parts file = true → lastIn disk submitted file = some vote →
    vote.changeId = changeId
  found : ∀ vote ∈ submitted, vote.changeId = changeId → ∀ file, fileOf disk vote = some file →
    disk.finds parts file = true ∧ ∃ last, lastIn disk submitted file = some last ∧
      last.changeId = changeId ∧ last.agent = vote.agent

/-- The pattern of the change can be searched for, and the files of the change are kept. -/
def Kept (disk : Disk) (submitted : List CABDecision) (changeId : String) : Prop :=
  ∃ parts, disk.patternParts (votePattern changeId) = .ok parts ∧
    KeptIn disk submitted changeId parts

/-- Votes of one voter on one change have one file. -/
theorem fileOf_congr {vote vote' : CABDecision} (hid : vote.changeId = vote'.changeId)
    (hagent : vote.agent = vote'.agent) : fileOf disk vote = fileOf disk vote' := by
  rw [fileOf, fileOf, hid, hagent]

/-- The last vote in a file is the last one of its voter on its change. -/
theorem lastVote_of_lastIn {submitted : List CABDecision} {file : FileKey} {vote : CABDecision}
    (h : lastIn disk submitted file = some vote) :
    lastVote submitted vote.changeId vote.agent = some vote := by
  have hfile := (mem_of_lastIn h).2
  refine getLast?_filter_of_imp (fun w _ hw => ?_) h (decide_eq_true ⟨rfl, rfl⟩)
  obtain ⟨hid, hagent⟩ := of_decide_eq_true hw
  exact decide_eq_true ((fileOf_congr hid hagent).trans hfile)

/-- **The votes on a change** are the last ones of its voters exactly when its files are kept. -/
theorem votes_exact_iff_kept (env : Env) (F : FloatText) (disk : Disk) (calls : List VoteCall)
    (changeId : String) :
    ReturnsLastVotes (Ballot.after env F disk calls).submitted changeId
        (getCabVotes env F disk (Ballot.after env F disk calls).files changeId) ↔
      Kept disk (Ballot.after env F disk calls).submitted changeId := by
  have hholds : (Ballot.after env F disk calls).Holds F disk := holds_after calls
  generalize Ballot.after env F disk calls = b at hholds ⊢
  constructor
  · rintro ⟨votes, hvotes, -, hlast⟩
    obtain ⟨parts, hparts, -⟩ := bind_eq_ok.mp hvotes
    have hmem := mem_getCabVotes_iff hholds hvotes hparts
    refine ⟨parts, hparts, fun file vote hfinds hin => ?_, fun vote hvote hid file hfile => ?_⟩
    · have hof := (hlast vote).mp ((hmem vote).mpr ⟨file, hfinds, hin⟩)
      exact (mem_of_lastVote hof).2.1
    · -- the voter has a last vote, which is returned
      obtain ⟨last, hof⟩ : ∃ last, lastVote b.submitted changeId vote.agent = some last := by
        refine Option.isSome_iff_exists.mp ?_
        rw [lastVote, List.getLast?_isSome]
        exact List.ne_nil_of_mem (List.mem_filter.mpr ⟨hvote, decide_eq_true ⟨hid, rfl⟩⟩)
      obtain ⟨-, hid', hagent⟩ := mem_of_lastVote hof
      obtain ⟨file', hfinds, hin⟩ := (hmem last).mp ((hlast last).mpr (hagent ▸ hof))
      have hsame : file' = file := by
        have := @fileOf_congr disk _ _ (hid'.trans hid.symm) hagent
        rw [(mem_of_lastIn hin).2, hfile] at this
        exact Option.some.inj this
      subst hsame
      exact ⟨hfinds, last, hin, hid', hagent⟩
  · rintro ⟨parts, hparts, hown, hfound⟩
    obtain ⟨votes, hvotes⟩ : ∃ votes, getCabVotes env F disk b.files changeId = .ok votes :=
      ⟨_, bind_eq_ok.mpr ⟨parts, hparts, rfl⟩⟩
    refine ⟨votes, hvotes, nodup_getCabVotes hholds hvotes, fun vote => ?_⟩
    rw [mem_getCabVotes_iff hholds hvotes hparts]
    constructor
    · rintro ⟨file, hfinds, hin⟩
      rw [← hown file vote hfinds hin]
      exact lastVote_of_lastIn hin
    · intro hof
      obtain ⟨hmem, hid, -⟩ := mem_of_lastVote hof
      obtain ⟨file, hfile⟩ := Option.isSome_iff_exists.mp (hholds.placed vote hmem)
      obtain ⟨hfinds, last, hin, hid', hagent⟩ := hfound vote hmem hid file hfile
      -- the last vote in the file is the last one of the voter
      have hof' := lastVote_of_lastIn hin
      rw [hid', hagent, hof] at hof'
      cases hof'
      exact ⟨file, hfinds, hin⟩

/-- The only vote on file is returned where its file is found. -/
theorem getCabVotes_of_file {files : VoteFiles} {file : FileKey} {vote : CABDecision}
    {parts : List String} {changeId : String} (hfiles : files = [(file, vote.content F)])
    (hparts : disk.patternParts (votePattern changeId) = .ok parts)
    (hfinds : disk.finds parts file = true) :
    getCabVotes env F disk files changeId = .ok [vote] := by
  have hread : readVote env F (vote.content F) = some vote := readVote_content _
  subst hfiles
  unfold getCabVotes
  rw [hparts]
  generalize vote.content F = content at hread ⊢
  rw [ok_bind, List.filter_cons_of_pos (by exact hfinds)]
  exact congrArg Except.ok (List.filterMap_cons_some hread)

/-! ### A change whose name extends another one -/

/-- `cab_dir` without directories in it. -/
def flatDisk : Disk where
  directory := fun parts => if parts = [] then some 0 else none
  isUnder := fun parts n => parts = [] && n == 0
  refusal := fun _ _ => none
  refusesStars := true
  directory_nil := rfl
  isUnder_nil := fun _ => rfl

/-- Bob rejects the change `c-1-2`. -/
def rejectedByBob : Ballot :=
  Ballot.after plainEnv zeroFloats flatDisk
    [{ changeId := "c-1-2", agent := "bob", decision := "rejected", now := "t" }]

/-- The vote of Bob. -/
def bobsVote : CABDecision :=
  { changeId := "c-1-2", agent := "bob", decision := .rejected, decidedAt := "t" }

/-- The vote on `c-1-2` is returned for the change `c-1`, and rejects it: the pattern of the shorter
name fits the file of that vote. -/
theorem vote_of_other_change : rejectedByBob.submitted = [bobsVote] ∧
    getCabVotes plainEnv zeroFloats flatDisk rejectedByBob.files "c-1" = .ok [bobsVote] ∧
    ((foldVotedChange plainEnv zeroFloats flatDisk rejectedByBob.files "c-1"
      [("id", .str "c-1")] []).toOption.map Change.status) = some .rejected ∧
    ¬ReturnsLastVotes rejectedByBob.submitted "c-1"
      (getCabVotes plainEnv zeroFloats flatDisk rejectedByBob.files "c-1") := by
  have hsubmitted : rejectedByBob.submitted = [bobsVote] := by decide +kernel
  have hfiles : rejectedByBob.files = [((0, "c-1-2-bob.json"), bobsVote.content zeroFloats)] := by
    decide +kernel
  have hparts : flatDisk.patternParts (votePattern "c-1") = .ok ["c-1-*.json"] :=
    toOption_eq_some.mp (by decide +kernel)
  have hfinds : flatDisk.finds ["c-1-*.json"] (0, "c-1-2-bob.json") = true := by decide +kernel
  have hreturned : getCabVotes plainEnv zeroFloats flatDisk rejectedByBob.files "c-1" =
      .ok [bobsVote] := getCabVotes_of_file hfiles hparts hfinds
  have hstatus : (foldVotedChange plainEnv zeroFloats flatDisk rejectedByBob.files "c-1"
      [("id", .str "c-1")] []).toOption.map Change.status = some .rejected := by
    have hid : plainEnv.format (Dict.getD [("id", .str "c-1")] "id" (.str "c-1")) = "c-1" := by
      decide +kernel
    rw [foldVotedChange, hid, hreturned, ok_bind]
    decide +kernel
  refine ⟨hsubmitted, hreturned, hstatus, ?_⟩
  rintro ⟨votes, hok, -, hlast⟩
  cases hreturned.symm.trans hok
  have hbob := (hlast bobsVote).mp (List.mem_singleton.mpr rfl)
  rw [hsubmitted] at hbob
  exact absurd hbob (by decide)

/-! ### Plain names -/

theorem toList_voteName (changeId voter : String) :
    (voteName changeId voter).toList =
      (changeId ++ "-").toList ++ voter.toList ++ ".json".toList := by
  rw [voteName, String.toList_append, String.toList_append]

theorem voteName_ne (changeId voter : String) :
    voteName changeId voter ≠ "" ∧ voteName changeId voter ≠ "." := by
  have hlength : 5 ≤ (voteName changeId voter).toList.length := by
    rw [toList_voteName, List.length_append]
    exact Nat.le_add_left 5 _
  constructor <;>
  · intro h
    rw [h] at hlength
    exact absurd hlength (by decide)

/-- The file of a vote whose names have no slash is in `cab_dir`. -/
theorem fileOf_of_plain {vote : CABDecision} {file : FileKey} (hid : '/' ∉ vote.changeId.toList)
    (hagent : '/' ∉ vote.agent.toList) (h : fileOf disk vote = some file) :
    file = (0, voteName vote.changeId vote.agent) := by
  have hslash : '/' ∉ (voteName vote.changeId vote.agent).toList := by
    rw [toList_voteName, String.toList_append]
    simp [hid, hagent]
  obtain ⟨hne, hdot⟩ := voteName_ne vote.changeId vote.agent
  rw [fileOf, Disk.place, pathParts_of_name hslash hne hdot] at h
  simp only [List.getLast?_singleton, List.dropLast_singleton, disk.directory_nil] at h
  cases hrefusal : disk.refusal 0 (voteName vote.changeId vote.agent) with
  | none =>
    rw [hrefusal] at h
    exact (Option.some.inj h).symm
  | some e =>
    rw [hrefusal] at h
    cases h

theorem votePattern_eq (changeId : String) :
    votePattern changeId = changeId ++ "-" ++ "*" ++ ".json" := by
  rw [votePattern, String.append_assoc, String.append_assoc]
  rfl

/-- The pattern of a change without slashes and without characters of patterns. -/
theorem patternParts_of_plain {changeId : String} (hslash : '/' ∉ changeId.toList)
    (hplain : IsPlain changeId.toList) :
    disk.patternParts (votePattern changeId) = .ok [votePattern changeId] := by
  have htext : (votePattern changeId).toList = changeId.toList ++ "-*.json".toList :=
    String.toList_append
  have hnone : '/' ∉ (votePattern changeId).toList := by
    rw [htext]
    simp [hslash]
  have hlength : 7 ≤ (votePattern changeId).toList.length := by
    rw [htext, List.length_append]
    exact Nat.le_add_left 7 _
  have hne : votePattern changeId ≠ "" ∧ votePattern changeId ≠ "." := by
    constructor <;>
    · intro h
      rw [h] at hlength
      exact absurd hlength (by decide)
  have hrelative : isAbsolutePath (votePattern changeId) = false := by
    rw [isAbsolutePath, beq_eq_false_iff_ne]
    exact fun h => hnone (List.mem_of_head? h)
  -- there is one star in the pattern
  have hstars : contains (votePattern changeId) "**" = false := by
    rw [contains, List.any_eq_false]
    intro t ht hprefix
    have hcount : (votePattern changeId).toList.count '*' = 1 := by
      have hzero : changeId.toList.count '*' = 0 :=
        List.count_eq_zero.mpr fun hmem => (hplain '*' hmem).1 rfl
      rw [htext, List.count_append, hzero]
      rfl
    have hle := ((List.isPrefixOf_iff_prefix.mp hprefix).sublist.trans
      ((List.mem_tails _ _).mp ht).sublist).count_le '*'
    rw [hcount] at hle
    exact absurd hle (by decide)
  have hany : ([votePattern changeId].any fun part => contains part "**" && part ≠ "**") = false := by
    rw [List.any_cons, hstars]
    rfl
  rw [Disk.patternParts, pathParts_of_name hnone hne.1 hne.2, hrelative, hany, Bool.and_false]
  rfl

/-- What extends a name and a dash before the suffix of a vote is the name of a vote. -/
theorem fnmatch_votePattern {changeId voter changeId' : String}
    (hplain : IsPlain changeId.toList) :
    fnmatch (voteName changeId' voter) (votePattern changeId) = true ↔
      (changeId ++ "-").toList <+: (voteName changeId' voter).toList := by
  have hbefore : IsPlain (changeId ++ "-").toList := by
    rw [String.toList_append]
    intro c hc
    rcases List.mem_append.mp hc with hc | hc
    · exact hplain c hc
    · rw [List.mem_singleton.mp hc]
      decide
  rw [votePattern_eq, fnmatch_star hbefore (by decide)]
  constructor
  · rintro ⟨middle, hname⟩
    rw [hname, List.append_assoc]
    exact List.prefix_append _ _
  · intro hprefix
    rw [toList_voteName] at hprefix ⊢
    -- the dash is not in the suffix
    have hbody : (changeId ++ "-").toList <+: (changeId' ++ "-").toList ++ voter.toList := by
      rcases List.prefix_or_prefix_of_prefix hprefix (List.prefix_append _ _) with h | ⟨t, ht⟩
      · exact h
      · rw [← ht, List.prefix_append_right_inj] at hprefix
        cases hlast : t.getLast? with
        | none =>
          rw [List.getLast?_eq_none_iff] at hlast
          rw [← ht, hlast, List.append_nil]
        | some c =>
          have hdash : (changeId ++ "-").toList.getLast? = some '-' := by
            rw [String.toList_append]
            exact List.getLast?_concat
          rw [← ht, List.getLast?_append, hlast] at hdash
          have hc : c ∈ ".json".toList := hprefix.subset (List.mem_of_getLast? hlast)
          rw [Option.some.inj hdash] at hc
          exact absurd hc (by decide)
    obtain ⟨middle, hmiddle⟩ := hbody
    exact ⟨middle, by rw [hmiddle]⟩

/-- **Names without slashes**: the votes on a change are kept when no file whose name extends that
of the change was written last for another one. -/
theorem kept_iff_of_plain {submitted : List CABDecision} {changeId : String}
    (hslash : '/' ∉ changeId.toList) (hplain : IsPlain changeId.toList)
    (hnames : ∀ vote ∈ submitted, '/' ∉ vote.changeId.toList ∧ '/' ∉ vote.agent.toList) :
    Kept disk submitted changeId ↔ ∀ file vote, lastIn disk submitted file = some vote →
      (changeId ++ "-").toList <+: file.2.toList → vote.changeId = changeId := by
  have hfinds : ∀ {vote file}, vote ∈ submitted → fileOf disk vote = some file →
      (disk.finds [votePattern changeId] file = true ↔
        (changeId ++ "-").toList <+: file.2.toList) := by
    intro vote file hvote hfile
    obtain ⟨hid, hagent⟩ := hnames vote hvote
    rw [fileOf_of_plain hid hagent hfile, Disk.finds, List.dropLast_singleton, disk.isUnder_nil]
    exact fnmatch_votePattern hplain
  constructor
  · rintro ⟨parts, hparts, hown, -⟩ file vote hin hprefix
    cases hparts.symm.trans (patternParts_of_plain hslash hplain)
    obtain ⟨hvote, hfile⟩ := mem_of_lastIn hin
    exact hown file vote ((hfinds hvote hfile).mpr hprefix) hin
  · intro h
    refine ⟨_, patternParts_of_plain hslash hplain, fun file vote hfound hin => ?_,
      fun vote hvote hid file hfile => ?_⟩
    · obtain ⟨hvote, hfile⟩ := mem_of_lastIn hin
      exact h file vote hin ((hfinds hvote hfile).mp hfound)
    · have hprefix : (changeId ++ "-").toList <+: file.2.toList := by
        obtain ⟨hids, hagent⟩ := hnames vote hvote
        rw [fileOf_of_plain hids hagent hfile, hid, toList_voteName, List.append_assoc]
        exact List.prefix_append _ _
      obtain ⟨last, hin⟩ : ∃ last, lastIn disk submitted file = some last := by
        refine Option.isSome_iff_exists.mp ?_
        rw [lastIn, List.getLast?_isSome]
        exact List.ne_nil_of_mem (List.mem_filter.mpr ⟨hvote, decide_eq_true hfile⟩)
      refine ⟨(hfinds hvote hfile).mpr hprefix, last, hin, h file last hin hprefix, ?_⟩
      -- two votes on one change that share a file have one voter
      obtain ⟨hlast, hfile'⟩ := mem_of_lastIn hin
      obtain ⟨hids, hagent⟩ := hnames vote hvote
      obtain ⟨hids', hagent'⟩ := hnames last hlast
      have hsame := fileOf_of_plain hids hagent hfile
      rw [fileOf_of_plain hids' hagent' hfile', h file last hin hprefix, hid] at hsame
      have hlists := congrArg String.toList (Prod.mk.inj hsame).2
      rw [toList_voteName, toList_voteName, List.append_cancel_right_eq,
        List.append_cancel_left_eq] at hlists
      exact String.toList_inj.mp hlists

end SkCoord.Itil
