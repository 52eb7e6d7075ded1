/-
  PocketCalc.Proofs.Disk.Replacing
  ────────────────────────────────
  **A FILE IS REPLACED IN ONE STEP, OR NOT AT ALL.**

  The plan that replaces a file makes the directories on the way, writes the content
  to the temporary place, and moves it.  Wherever the plan is cut, there are new
  directories and perhaps a temporary file; only the last call, which does its work at
  once or not at all, touches the file itself.

      replace_cases        what a plan that may be interrupted leaves behind
      run_replace          where the plan succeeds once, it succeeds again
-/
import PocketCalc.Proofs.Disk.Places

namespace PocketCalc

namespace Disk

variable {d d' d'' : Disk} {p : Path} {content : ByteArray} {fates : List Fate}
  {outcome : Except AccessError Unit}

/-! ## §1. Calls and plans that may be interrupted. -/

/-- A call that succeeds was carried out. -/
theorem attempt_ok {c : Call} {fate : Fate} (h : d.attempt c fate = (d', .ok ())) :
    d.perform c = .ok d' := by
  cases fate with
  | interrupted written => cases h
  | carriedOut =>
    unfold attempt at h
    dsimp only at h
    split at h
    · next d₁ hperform =>
      cases h
      exact hperform
    · cases h

/-- A call that fails leaves a part of what it should have written, or nothing. -/
theorem attempt_error {c : Call} {fate : Fate} {e : AccessError}
    (h : d.attempt c fate = (d', .error e)) :
    d' = d ∨ ∃ q bytes part, c = .append q bytes ∧ d.perform (.append q part) = .ok d' := by
  cases fate with
  | carriedOut =>
    unfold attempt at h
    dsimp only at h
    split at h
    · cases h
    · cases h
      exact .inl rfl
  | interrupted written =>
    cases h
    cases c with
    | append q bytes =>
      unfold leave
      dsimp only
      split
      · next d₁ hperform => exact .inr ⟨q, bytes, _, rfl, hperform⟩
      · exact .inl rfl
    | _ => exact .inl rfl

/-- The first call of a plan. -/
theorem runUnder_cons {c : Call} {cs : List Call} (h : d.runUnder fates (c :: cs) = (d', outcome)) :
    (∃ d₁, d.perform c = .ok d₁ ∧ d₁.runUnder fates.tail cs = (d', outcome))
      ∨ (∃ e, outcome = .error e)
        ∧ (d' = d ∨ ∃ q bytes part, c = .append q bytes ∧ d.perform (.append q part) = .ok d') := by
  rw [runUnder] at h
  split at h
  · next d₁ hattempt => exact .inl ⟨d₁, attempt_ok hattempt, h⟩
  · next d₁ e hattempt =>
    cases h
    exact .inr ⟨⟨e, rfl⟩, attempt_error hattempt⟩

/-- A call that nothing interrupts. -/
theorem runUnder_of_perform {c : Call} {cs : List Call} (h : d.perform c = .ok d') :
    d.runUnder [] (c :: cs) = d'.runUnder [] cs := by
  have hattempt : d.attempt c .carriedOut = (d', .ok ()) := by
    unfold attempt
    dsimp only
    rw [h]
  rw [runUnder, List.headD_nil, hattempt]
  rfl

/-- A plan of two parts. -/
theorem runUnder_append {as bs : List Call}
    (h : d.runUnder fates (as ++ bs) = (d', outcome)) :
    (∃ d₁ fates', d.runUnder fates as = (d₁, .ok ()) ∧ d₁.runUnder fates' bs = (d', outcome))
      ∨ ∃ e, outcome = .error e ∧ d.runUnder fates as = (d', .error e) := by
  induction as generalizing d fates with
  | nil => exact .inl ⟨d, fates, by rw [runUnder], h⟩
  | cons a as ih =>
    rw [List.cons_append, runUnder] at h
    rw [runUnder]
    split at h
    · next d₁ hattempt => exact ih h
    · next d₁ e hattempt =>
      cases h
      exact .inr ⟨e, rfl, rfl⟩

/-! ## §2. Making directories. -/

/-- There are new directories, and nothing else has changed. -/
def Grown (d d' : Disk) : Prop :=
  ∀ place, d'.node? place = d.node? place
    ∨ d.node? place = none ∧ d'.node? place = some .directory

theorem Grown.refl (d : Disk) : d.Grown d := fun _ => .inl rfl

theorem Grown.trans (h : d.Grown d') (h' : d'.Grown d'') : d.Grown d'' := by
  intro place
  rcases h' place with hsame | ⟨hnone, hdir⟩
  · rw [hsame]
    exact h place
  · rcases h place with hsame | ⟨-, hdir'⟩
    · exact .inr ⟨hsame.symm.trans hnone, hdir⟩
    · rw [hdir'] at hnone
      cases hnone

/-- No directory goes away. -/
theorem Grown.keepsDirectories (h : d.Grown d') : d.KeepsDirectories d' := by
  intro place hdir
  rcases h place with hsame | ⟨-, hdir'⟩
  · rw [hsame, hdir]
  · exact hdir'

/-- The files are as they were. -/
theorem Grown.fileAt?_eq (h : d.Grown d') (place : Path) : d'.fileAt? place = d.fileAt? place := by
  unfold fileAt?
  rcases h place with hsame | ⟨hnone, hdir⟩
  · rw [hsame]
  · rw [hnone, hdir]

/-- One call makes one directory at most. -/
theorem grown_makeDirectory (h : d.makeDirectory p = .ok d') : d.Grown d' := by
  obtain ⟨place, -, hputs, hfree⟩ := makeDirectory_cases h
  intro q
  rw [hputs q]
  split
  · next hq =>
    rw [hq]
    exact hfree.imp Eq.symm fun hnone => ⟨hnone, rfl⟩
  · exact .inl rfl

/-- A directory stands where the path leads to. -/
def HasDirectory (d : Disk) (p : Path) : Prop :=
  ∃ place, d.walk p = .ok place ∧ d.node? place = some .directory

/-- A directory stays where the path leads to. -/
theorem HasDirectory.mono (h : d.HasDirectory p) (hkeeps : d.KeepsDirectories d') :
    d'.HasDirectory p := by
  obtain ⟨place, hwalk, hdir⟩ := h
  exact ⟨place, walk_mono hkeeps hwalk, hkeeps place hdir⟩

/-- **Making directories only makes directories**, and all of them if nothing fails. -/
theorem grown_makeDirectories {ps : List Path}
    (h : d.runUnder fates (ps.map .makeDirectory) = (d', outcome)) :
    d.Grown d' ∧ (outcome = .ok () → ∀ q ∈ ps, d'.HasDirectory q) := by
  induction ps generalizing d fates with
  | nil =>
    rw [List.map_nil, runUnder] at h
    cases h
    exact ⟨.refl _, fun _ _ hq => nomatch hq⟩
  | cons q ps ih =>
    rcases runUnder_cons h with ⟨d₁, hmake, hrest⟩ | ⟨⟨e, rfl⟩, rfl | ⟨_, _, _, hc, -⟩⟩
    · have hgrown : d.Grown d₁ := grown_makeDirectory hmake
      obtain ⟨hgrown', hall⟩ := ih hrest
      refine ⟨hgrown.trans hgrown', fun hok r hr => ?_⟩
      rcases List.mem_cons.1 hr with rfl | hr
      · obtain ⟨place, hwalk, hputs, -⟩ := makeDirectory_cases hmake
        have hthere : d₁.HasDirectory r :=
          ⟨place, walk_mono hgrown.keepsDirectories hwalk, by rw [hputs, if_pos rfl]⟩
        exact hthere.mono hgrown'.keepsDirectories
      · exact hall hok r hr
    · exact ⟨.refl _, fun hok => nomatch hok⟩
    · cases hc

/-- A directory that is there need not be made. -/
theorem perform_makeDirectory_of_hasDirectory (h : d.HasDirectory p) :
    d.perform (.makeDirectory p) = .ok d := by
  obtain ⟨place, hwalk, hdir⟩ := h
  show d.makeDirectory p = _
  unfold makeDirectory
  rw [hwalk]
  dsimp only
  rw [hdir]

/-- Directories that are there are left alone, interrupted or not. -/
theorem eq_of_makeDirectories {ps : List Path} (hall : ∀ q ∈ ps, d.HasDirectory q)
    (h : d.runUnder fates (ps.map .makeDirectory) = (d', outcome)) : d' = d := by
  induction ps generalizing fates with
  | nil =>
    rw [List.map_nil, runUnder] at h
    cases h
    rfl
  | cons q ps ih =>
    rcases runUnder_cons h with ⟨d₁, hmake, hrest⟩ | ⟨-, rfl | ⟨_, _, _, hc, -⟩⟩
    · rw [perform_makeDirectory_of_hasDirectory (hall q List.mem_cons_self)] at hmake
      cases hmake
      exact ih (fun r hr => hall r (List.mem_cons_of_mem _ hr)) hrest
    · rfl
    · cases hc

/-- Directories that are there do not stop a plan. -/
theorem run_makeDirectories {ps : List Path} (h : ∀ q ∈ ps, d.HasDirectory q) (cs : List Call) :
    d.runUnder [] (ps.map .makeDirectory ++ cs) = d.runUnder [] cs := by
  induction ps with
  | nil => rfl
  | cons q ps ih =>
    have hmake := perform_makeDirectory_of_hasDirectory (h q List.mem_cons_self)
    rw [List.map_cons, List.cons_append, runUnder_of_perform hmake]
    exact ih fun r hr => h r (List.mem_cons_of_mem _ hr)

/-- **Where a path leads somewhere, its directories are there.** -/
theorem hasDirectory_of_walk {place : Path} (hwalk : d.walk p = .ok place) :
    ∀ q ∈ p.ancestors, d.HasDirectory q := by
  intro q hq
  unfold Path.ancestors at hq
  obtain ⟨n, hn, rfl⟩ := List.mem_map.1 hq
  have hlt : n < p.length := List.mem_range.1 (List.mem_of_mem_drop hn)
  obtain ⟨name, rest, hrest⟩ := List.exists_cons_of_ne_nil (by simpa using hlt : p.drop n ≠ [])
  have hsplit := List.take_append_drop n p
  rw [hrest] at hsplit
  rw [← hsplit] at hwalk
  unfold walk at hwalk
  rw [walkFrom_append] at hwalk
  unfold HasDirectory walk
  cases hbase : d.walkFrom [] (p.take n) with
  | error e =>
    rw [hbase] at hwalk
    cases hwalk
  | ok base =>
    rw [hbase] at hwalk
    -- The walk goes on from there.
    change d.walkFrom base (name :: rest) = .ok place at hwalk
    rw [walkFrom] at hwalk
    split at hwalk
    · next hdir => exact ⟨base, rfl, hdir⟩
    · cases hwalk
    · cases hwalk

/-! ## §3. The temporary file. -/

/-- At one place a file may have come, changed or gone; nothing else has changed. -/
structure TouchesFile (d : Disk) (place : Path) (d' : Disk) : Prop where
  before : d.node? place ≠ some .directory
  after : d'.node? place ≠ some .directory
  others : ∀ q, q ≠ place → d'.node? q = d.node? q

namespace TouchesFile

variable {place : Path}

theorem trans (h : d.TouchesFile place d') (h' : d'.TouchesFile place d'') :
    d.TouchesFile place d'' :=
  ⟨h.before, h'.after, fun q hq => (h'.others q hq).trans (h.others q hq)⟩

theorem symm (h : d.TouchesFile place d') : d'.TouchesFile place d :=
  ⟨h.after, h.before, fun q hq => (h.others q hq).symm⟩

theorem keepsDirectories (h : d.TouchesFile place d') : d.KeepsDirectories d' := by
  intro q hdir
  have hq : q ≠ place := by
    rintro rfl
    exact h.before hdir
  rw [h.others q hq, hdir]

theorem of_puts {n : Option Node} (hbefore : d.node? place ≠ some .directory)
    (hn : n ≠ some .directory) (hputs : d.Puts place n d') : d.TouchesFile place d' :=
  ⟨hbefore, by rwa [hputs, if_pos rfl], fun q hq => by rw [hputs, if_neg hq]⟩

end TouchesFile

/-- A file that is created is empty, whatever was in it. -/
theorem perform_create_cases (h : d.perform (.create p) = .ok d') :
    ∃ place, d.walk p = .ok place ∧ d.TouchesFile place d'
      ∧ d'.node? place = some (.file .empty) := by
  obtain ⟨place, hwalk, hfile, hputs⟩ := putFile_cases h
  exact ⟨place, hwalk, .of_puts hfile (by simp) hputs, by rw [hputs, if_pos rfl]⟩

/-- Bytes are appended to a file that is there. -/
theorem perform_append_cases {bytes : ByteArray} (h : d.perform (.append p bytes) = .ok d') :
    ∃ place old, d.walk p = .ok place ∧ d.node? place = some (.file old)
      ∧ d.TouchesFile place d' ∧ d'.node? place = some (.file (old ++ bytes)) := by
  unfold perform at h
  dsimp only at h
  split at h
  · next old hread =>
    obtain ⟨place, hwalk, hold⟩ := read_eq_ok_iff.1 hread
    obtain ⟨place', hwalk', hfile, hputs⟩ := putFile_cases h
    obtain rfl : place = place' := Except.ok.inj (hwalk.symm.trans hwalk')
    exact ⟨place, old, hwalk, fileAt?_eq_some.1 hold, .of_puts hfile (by simp) hputs,
      by rw [hputs, if_pos rfl]⟩
  · cases h

/-- Waiting for the bytes changes nothing. -/
theorem perform_sync_cases (h : d.perform (.sync p) = .ok d') : d' = d := by
  unfold perform at h
  dsimp only at h
  split at h
  · cases h
    rfl
  · cases h

/-- A file has moved from one place to the other. -/
structure Moves (d : Disk) (source target : Path) (content : ByteArray) (d' : Disk) : Prop where
  source_before : d.node? source ≠ some .directory
  target_before : d.node? target ≠ some .directory
  source_after : d'.node? source = none
  target_after : d'.node? target = some (.file content)
  others : ∀ q, q ≠ source → q ≠ target → d'.node? q = d.node? q

/-- A file is moved as a whole, and nothing else is touched. -/
theorem perform_rename_cases {source place : Path} (h : d.perform (.rename source p) = .ok d')
    (hwalk : d.walk source = .ok place) (hplace : d.node? place = some (.file content))
    (hne : ∀ target, d.walk p = .ok target → place ≠ target) :
    ∃ target, d.walk p = .ok target ∧ d.Moves place target content d' := by
  unfold perform at h
  dsimp only at h
  split at h
  · next content' d₁ hread htake =>
    obtain ⟨place', hwalk', hcontent⟩ := read_eq_ok_iff.1 hread
    obtain rfl : place = place' := Except.ok.inj (hwalk.symm.trans hwalk')
    rw [fileAt?_eq_some, hplace] at hcontent
    cases hcontent
    obtain ⟨place'', content'', hwalk'', hfile, htaken⟩ := takeFile_cases htake
    obtain rfl : place = place'' := Except.ok.inj (hwalk.symm.trans hwalk'')
    obtain ⟨target, htarget, htargetFile, hputs⟩ := putFile_cases h
    -- The file that was taken is no directory, so the walk does not miss it.
    have htouches : d.TouchesFile place d₁ := .of_puts (by simp [hfile]) (by simp) htaken
    have htarget' : d.walk p = .ok target := walk_mono htouches.symm.keepsDirectories htarget
    have hdiffer := hne target htarget'
    refine ⟨target, htarget', by simp [hfile], ?_, ?_, ?_, fun q hq hq' => ?_⟩
    · rwa [← htouches.others target hdiffer.symm]
    · rw [hputs, if_neg hdiffer, htaken, if_pos rfl]
    · rw [hputs, if_pos rfl]
    · rw [hputs, if_neg hq', htaken, if_neg hq]
  · cases h
  · cases h

/-! ## §4. The whole plan. -/

/-- What replacing a file leaves behind if it fails: at most the temporary file has
changed. -/
def Prepares (d : Disk) (p : Path) (d' : Disk) : Prop :=
  d' = d ∨ ∃ place, d.walk p.temporary = .ok place ∧ d.TouchesFile place d'

/-- What replacing a file leaves behind if it succeeds. -/
def Replaces (d : Disk) (p : Path) (content : ByteArray) (d' : Disk) : Prop :=
  ∃ place target, d.walk p.temporary = .ok place ∧ d.walk p = .ok target
    ∧ d.Moves place target content d'

/-- The last step, after the content was written to the temporary place. -/
theorem replaces_of_rename {place : Path} (htouches : d.TouchesFile place d')
    (hwalk : d.walk p.temporary = .ok place) (hfull : d'.node? place = some (.file content))
    (hrename : d'.perform (.rename p.temporary p) = .ok d'') : d.Replaces p content d'' := by
  have hback : d'.KeepsDirectories d := htouches.symm.keepsDirectories
  have hdiffer : ∀ target, d'.walk p = .ok target → place ≠ target := fun target htarget =>
    place_temporary_ne (walk_mono hback htarget) hwalk htouches.before
  obtain ⟨target, htarget, hmoves⟩ :=
    perform_rename_cases hrename (walk_mono htouches.keepsDirectories hwalk) hfull hdiffer
  have hothers : ∀ q, q ≠ place → d'.node? q = d.node? q := htouches.others
  refine ⟨place, target, hwalk, walk_mono hback htarget, htouches.before, ?_,
    hmoves.source_after, hmoves.target_after, fun q hq hq' => ?_⟩
  · rw [← hothers target (hdiffer target htarget).symm]
    exact hmoves.target_before
  · rw [hmoves.others q hq hq', hothers q hq]

/-- The calls behind the last directory. -/
theorem move_cases
    (h : d.runUnder fates [.create p.temporary, .append p.temporary content, .sync p.temporary,
      .rename p.temporary p] = (d', outcome)) :
    (∃ e, outcome = .error e) ∧ d.Prepares p d' ∨ outcome = .ok () ∧ d.Replaces p content d' := by
  -- Each call ends the plan, with the temporary file at most, or the next one follows.
  rcases runUnder_cons h with ⟨d₁, hcreate, hrest⟩ | ⟨he, rfl | ⟨_, _, _, hc, -⟩⟩
  · obtain ⟨place, hwalk, htouches, hempty⟩ := perform_create_cases hcreate
    have hwalk₁ : d₁.walk p.temporary = .ok place := walk_mono htouches.keepsDirectories hwalk
    -- The file was emptied, so it has just the bytes that are appended, all or a part.
    have happended : ∀ {bytes d₂}, d₁.perform (.append p.temporary bytes) = .ok d₂ →
        d.TouchesFile place d₂ ∧ d₂.node? place = some (.file bytes) := by
      intro bytes d₂ hperform
      obtain ⟨place', old, hwalk', hold, htouches', hnew⟩ := perform_append_cases hperform
      obtain rfl : place = place' := Except.ok.inj (hwalk₁.symm.trans hwalk')
      obtain rfl : ByteArray.empty = old := by simpa [hempty] using hold
      exact ⟨htouches.trans htouches', by rw [hnew, ByteArray.empty_append]⟩
    rcases runUnder_cons hrest with ⟨d₂, happend, hrest₂⟩ | ⟨he, rfl | ⟨_, _, part, hc, hpart⟩⟩
    · obtain ⟨htouches₂, hfull⟩ := happended happend
      rcases runUnder_cons hrest₂ with ⟨d₃, hsync, hrest₃⟩ | ⟨he, rfl | ⟨_, _, _, hc, -⟩⟩
      · rw [perform_sync_cases hsync] at hrest₃
        rcases runUnder_cons hrest₃ with ⟨d₄, hrename, hdone⟩ | ⟨he, rfl | ⟨_, _, _, hc, -⟩⟩
        · rw [runUnder] at hdone
          cases hdone
          exact .inr ⟨rfl, replaces_of_rename htouches₂ hwalk hfull hrename⟩
        · exact .inl ⟨he, .inr ⟨place, hwalk, htouches₂⟩⟩
        · cases hc
      · exact .inl ⟨he, .inr ⟨place, hwalk, htouches₂⟩⟩
      · cases hc
    · exact .inl ⟨he, .inr ⟨place, hwalk, htouches⟩⟩
    · cases hc
      exact .inl ⟨he, .inr ⟨place, hwalk, (happended hpart).1⟩⟩
  · exact .inl ⟨he, .inl rfl⟩
  · cases hc

/-- A file is replaced by calls for the directories on the way to it and four more. -/
theorem replacePlan_eq (p : Path) (content : ByteArray) :
    replacePlan p content
      = p.ancestors.map .makeDirectory
        ++ [.create p.temporary, .append p.temporary content, .sync p.temporary,
          .rename p.temporary p] := by
  unfold replacePlan writePlan makeAncestors
  rw [Path.ancestors_temporary, List.append_assoc]
  rfl

/-- **Replacing a file, interrupted or not**: first there are new directories, if any are
missing; and then the file was replaced at once, or at most the temporary file has
changed. -/
theorem replace_cases (h : d.runUnder fates (replacePlan p content) = (d', outcome)) :
    ∃ d₁, d.Grown d₁ ∧ ((∀ q ∈ p.ancestors, d.HasDirectory q) → d₁ = d)
      ∧ ((∃ e, outcome = .error e) ∧ d₁.Prepares p d'
        ∨ outcome = .ok () ∧ (∀ q ∈ p.ancestors, d₁.HasDirectory q) ∧ d₁.Replaces p content d') := by
  rw [replacePlan_eq] at h
  rcases runUnder_append h with ⟨d₁, fates', hmake, hmove⟩ | ⟨e, rfl, hmake⟩
  · obtain ⟨hgrown, hall⟩ := grown_makeDirectories hmake
    refine ⟨d₁, hgrown, fun hthere => eq_of_makeDirectories hthere hmake,
      (move_cases hmove).imp id fun ⟨hok, hreplaces⟩ => ?_⟩
    exact ⟨hok, hall rfl, hreplaces⟩
  · exact ⟨d', (grown_makeDirectories hmake).1, fun hthere => eq_of_makeDirectories hthere hmake,
      .inl ⟨⟨e, rfl⟩, .inl rfl⟩⟩

/-! ## §5. What is there afterwards. -/

theorem Prepares.keepsDirectories (h : d.Prepares p d') :
    d.KeepsDirectories d' ∧ d'.KeepsDirectories d := by
  rcases h with rfl | ⟨place, -, htouches⟩
  · exact ⟨fun _ => id, fun _ => id⟩
  · exact ⟨htouches.keepsDirectories, htouches.symm.keepsDirectories⟩

/-- Directories neither come nor go when a file is moved. -/
theorem Moves.keepsDirectories {source target : Path} (h : d.Moves source target content d') :
    d.KeepsDirectories d' ∧ d'.KeepsDirectories d := by
  have hsource : d'.node? source ≠ some .directory := by simp [h.source_after]
  have htarget : d'.node? target ≠ some .directory := by simp [h.target_after]
  constructor
  · intro q hdir
    have hq : q ≠ source := fun hq => h.source_before (hq ▸ hdir)
    have hq' : q ≠ target := fun hq' => h.target_before (hq' ▸ hdir)
    rw [h.others q hq hq', hdir]
  · intro q hdir
    have hq : q ≠ source := fun hq => hsource (hq ▸ hdir)
    have hq' : q ≠ target := fun hq' => htarget (hq' ▸ hdir)
    rw [← h.others q hq hq', hdir]

theorem fileAt?_congr {q : Path} (h : d'.node? q = d.node? q) : d'.fileAt? q = d.fileAt? q := by
  unfold fileAt?
  rw [h]

theorem read_congr {q : Path} (hwalk : d.walk p = .ok q) (hwalk' : d'.walk p = .ok q)
    (h : d'.node? q = d.node? q) : d'.read p = d.read p := by
  unfold read find
  rw [hwalk, hwalk']
  dsimp only
  rw [h]

section

variable (h : d.runUnder fates (replacePlan p content) = (d', outcome))
include h

/-- No directory goes away, so a path leads where it led. -/
theorem replace_keepsDirectories : d.KeepsDirectories d' := by
  obtain ⟨d₁, hgrown, -, ⟨-, hprepares⟩ | ⟨-, -, place, target, -, -, hmoves⟩⟩ :=
    replace_cases h
  · exact fun q hdir => hprepares.keepsDirectories.1 q (hgrown.keepsDirectories q hdir)
  · exact fun q hdir => hmoves.keepsDirectories.1 q (hgrown.keepsDirectories q hdir)

/-- **No other file is touched** than the file itself and the temporary one. -/
theorem replace_elsewhere {q : Path} (hfile : d'.walk p ≠ .ok q)
    (htemporary : d'.walk p.temporary ≠ .ok q) : d'.fileAt? q = d.fileAt? q := by
  obtain ⟨d₁, hgrown, -, ⟨-, hprepares⟩ | ⟨-, -, place, target, hplace, htarget, hmoves⟩⟩ :=
    replace_cases h
  · rw [← hgrown.fileAt?_eq q]
    rcases hprepares with rfl | ⟨place, hplace, htouches⟩
    · rfl
    · refine fileAt?_congr (htouches.others q ?_)
      rintro rfl
      exact htemporary (walk_mono htouches.keepsDirectories hplace)
  · rw [← hgrown.fileAt?_eq q]
    refine fileAt?_congr (hmoves.others q ?_ ?_)
    · rintro rfl
      exact htemporary (walk_mono hmoves.keepsDirectories.1 hplace)
    · rintro rfl
      exact hfile (walk_mono hmoves.keepsDirectories.1 htarget)

/-- **The file is the old one or the new one**, and it is the new one only if the plan
succeeded. -/
theorem replace_fileAt? {q : Path} (hwalk : d'.walk p = .ok q) :
    (∃ e, outcome = .error e) ∧ d'.fileAt? q = d.fileAt? q
      ∨ outcome = .ok () ∧ d'.fileAt? q = some content := by
  obtain ⟨d₁, hgrown, -, ⟨he, hprepares⟩ | ⟨hok, -, place, target, hplace, htarget, hmoves⟩⟩ :=
    replace_cases h
  · refine .inl ⟨he, ?_⟩
    rw [← hgrown.fileAt?_eq q]
    rcases hprepares with rfl | ⟨place, hplace, htouches⟩
    · rfl
    · have hwalk₁ := walk_mono htouches.symm.keepsDirectories hwalk
      have hdiffer := place_temporary_ne hwalk₁ hplace htouches.before
      exact fileAt?_congr (htouches.others q hdiffer.symm)
  · have hwalk₁ := walk_mono hmoves.keepsDirectories.2 hwalk
    obtain rfl : target = q := Except.ok.inj (htarget.symm.trans hwalk₁)
    exact .inr ⟨hok, fileAt?_eq_some.2 hmoves.target_after⟩

/-- Where the path leads somewhere, reading gives what it gave, or the new content. -/
theorem replace_read {q : Path} (hwalk : d.walk p = .ok q) :
    (∃ e, outcome = .error e) ∧ d'.read p = d.read p
      ∨ outcome = .ok () ∧ d'.read p = .ok content := by
  have hwalk' := walk_mono (replace_keepsDirectories h) hwalk
  obtain ⟨d₁, -, hsame, ⟨he, hprepares⟩ | ⟨hok, -, -⟩⟩ := replace_cases h
  · -- The path leads somewhere, so no directory had to be made.
    obtain rfl : d₁ = d := hsame (hasDirectory_of_walk hwalk)
    refine .inl ⟨he, ?_⟩
    rcases hprepares with rfl | ⟨place, hplace, htouches⟩
    · rfl
    · have hdiffer := place_temporary_ne hwalk hplace htouches.before
      exact read_congr hwalk hwalk' (htouches.others q hdiffer.symm)
  · rcases replace_fileAt? h hwalk' with ⟨⟨e, rfl⟩, -⟩ | ⟨-, hnew⟩
    · cases hok
    · exact .inr ⟨hok, read_eq_ok_iff.2 ⟨q, hwalk', hnew⟩⟩

end

/-- A write that is cut leaves its first bytes, in the temporary file. -/
example :
    let (d', outcome) := runUnder {} [.carriedOut, .interrupted 1] (replacePlan ["h"] ⟨#[1, 2]⟩)
    d'.fileAt? ["h.json.tmp"] = some ⟨#[1]⟩ ∧ d'.fileAt? ["h"] = none
      ∧ outcome = .error .interrupted := by cbv

/-- The file is as it was: no other bytes are at the place that the path leads to, and
where it led somewhere before, reading gives what it gave. -/
structure KeepsFile (d : Disk) (p : Path) (d' : Disk) : Prop where
  fileAt?_eq : ∀ place, d'.walk p = .ok place → d'.fileAt? place = d.fileAt? place
  read_eq : ∀ place, d.walk p = .ok place → d'.read p = d.read p

/-- **A failure keeps the file.** -/
theorem keepsFile_of_replace {e : AccessError}
    (h : d.runUnder fates (replacePlan p content) = (d', .error e)) : d.KeepsFile p d' := by
  refine ⟨fun place hwalk => ?_, fun place hwalk => ?_⟩
  · rcases replace_fileAt? h hwalk with ⟨-, hsame⟩ | ⟨hok, -⟩
    · exact hsame
    · cases hok
  · rcases replace_read h hwalk with ⟨-, hsame⟩ | ⟨hok, -⟩
    · exact hsame
    · cases hok

/-- **After success the new content is there**, and the temporary file is gone. -/
theorem read_of_replace (h : d.runUnder fates (replacePlan p content) = (d', .ok ())) :
    d'.read p = .ok content ∧ d'.read p.temporary = .error .notFound := by
  obtain ⟨d₁, -, -, ⟨⟨e, he⟩, -⟩ | ⟨-, -, place, target, hplace, htarget, hmoves⟩⟩ :=
    replace_cases h
  · cases he
  · have hkeeps := hmoves.keepsDirectories.1
    refine ⟨read_eq_ok_iff.2 ⟨target, walk_mono hkeeps htarget, ?_⟩, ?_⟩
    · exact fileAt?_eq_some.2 hmoves.target_after
    · unfold read find
      rw [walk_mono hkeeps hplace]
      dsimp only
      rw [hmoves.source_after]

/-! ## §6. Success. -/

/-- A file can be created where no directory stands. -/
theorem exists_perform_create {place : Path} (hwalk : d.walk p = .ok place)
    (hfile : d.node? place ≠ some .directory) : ∃ d', d.perform (.create p) = .ok d' :=
  ⟨_, putFile_of_walk .empty hwalk hfile⟩

/-- Bytes can be appended to every file. -/
theorem exists_perform_append {place : Path} {old : ByteArray} (bytes : ByteArray)
    (hwalk : d.walk p = .ok place) (hold : d.node? place = some (.file old)) :
    ∃ d', d.perform (.append p bytes) = .ok d' := by
  have hread : d.read p = .ok old := read_eq_ok_iff.2 ⟨place, hwalk, fileAt?_eq_some.2 hold⟩
  unfold perform
  dsimp only
  rw [hread]
  exact ⟨_, putFile_of_walk _ hwalk (by simp [hold])⟩

theorem perform_sync {place : Path} {old : ByteArray} (hwalk : d.walk p = .ok place)
    (hold : d.node? place = some (.file old)) : d.perform (.sync p) = .ok d := by
  have hread : d.read p = .ok old := read_eq_ok_iff.2 ⟨place, hwalk, fileAt?_eq_some.2 hold⟩
  unfold perform
  dsimp only
  rw [hread]

/-- A file can be moved to where no directory stands. -/
theorem exists_perform_rename {source place target : Path} {old : ByteArray}
    (hwalk : d.walk source = .ok place) (hold : d.node? place = some (.file old))
    (htarget : d.walk p = .ok target) (hfile : d.node? target ≠ some .directory)
    (hne : place ≠ target) : ∃ d', d.perform (.rename source p) = .ok d' := by
  have hread : d.read source = .ok old :=
    read_eq_ok_iff.2 ⟨place, hwalk, fileAt?_eq_some.2 hold⟩
  have htake : d.takeFile source = .ok (d.remove place) := by
    unfold takeFile
    rw [hwalk]
    dsimp only
    rw [hold]
  have hplace : d.node? place ≠ some .directory := by simp [hold]
  have htaken : d.Puts place none (d.remove place) := node?_remove (ne_nil_of_node? hplace)
  have htouches : d.TouchesFile place (d.remove place) := .of_puts hplace (by simp) htaken
  unfold perform
  dsimp only
  rw [hread, htake]
  refine ⟨_, putFile_of_walk old (walk_mono htouches.keepsDirectories htarget) ?_⟩
  rwa [htouches.others target hne.symm]

/-- Nothing but a directory in the place of one of the two files stops the last calls. -/
theorem run_move {place target : Path} (content : ByteArray)
    (hwalk : d.walk p.temporary = .ok place) (hplace : d.node? place ≠ some .directory)
    (htarget : d.walk p = .ok target) (hfile : d.node? target ≠ some .directory) :
    (d.runUnder [] [.create p.temporary, .append p.temporary content, .sync p.temporary,
      .rename p.temporary p]).2 = .ok () := by
  have hne : place ≠ target := place_temporary_ne htarget hwalk hplace
  obtain ⟨d₁, hcreate⟩ := exists_perform_create hwalk hplace
  obtain ⟨place₁, hwalk₁, htouches₁, hempty⟩ := perform_create_cases hcreate
  obtain rfl : place = place₁ := Except.ok.inj (hwalk.symm.trans hwalk₁)
  have hthere := walk_mono htouches₁.keepsDirectories hwalk
  obtain ⟨d₂, happend⟩ := exists_perform_append content hthere hempty
  obtain ⟨place₂, old, hwalk₂, -, htouches₂, hfull⟩ := perform_append_cases happend
  obtain rfl : place = place₂ := Except.ok.inj (hthere.symm.trans hwalk₂)
  have htouches := htouches₁.trans htouches₂
  have hthere₂ := walk_mono htouches.keepsDirectories hwalk
  obtain ⟨d₃, hrename⟩ := exists_perform_rename hthere₂ hfull
    (walk_mono htouches.keepsDirectories htarget) (by rwa [htouches.others target hne.symm]) hne
  rw [runUnder_of_perform hcreate, runUnder_of_perform happend,
    runUnder_of_perform (perform_sync hthere₂ hfull), runUnder_of_perform hrename, runUnder]

/-- **Where a file was replaced, it can be replaced again**, whatever the content. -/
theorem run_replace (h : d.runUnder fates (replacePlan p content) = (d', .ok ()))
    (content' : ByteArray) : (d'.run (replacePlan p content')).2 = .ok () := by
  obtain ⟨d₁, -, -, ⟨⟨e, he⟩, -⟩ | ⟨-, hall, place, target, hplace, htarget, hmoves⟩⟩ :=
    replace_cases h
  · cases he
  · have hkeeps := hmoves.keepsDirectories.1
    unfold run
    rw [replacePlan_eq]
    rw [run_makeDirectories fun q hq => (hall q hq).mono hkeeps]
    exact run_move content' (walk_mono hkeeps hplace) (by simp [hmoves.source_after])
      (walk_mono hkeeps htarget) (by simp [hmoves.target_after])

end Disk

end PocketCalc
