/-
  PocketCalc.Proofs.History.Storing
  ─────────────────────────────────
  **A HISTORY IN A FILE IS NEVER LOST.**

  The file is written anew whenever a record comes.  Whatever call of the disk fails or
  is cut, the old history or the new one is there; and a file that cannot be read is
  left alone.

      write_atomic      the old document or the new one
      appends           what becomes of one record
      journal_kept      what becomes of the file after any records
-/
import Mathlib.Data.List.Forall2
import PocketCalc.History.FileStore
import PocketCalc.Proofs.Disk.Replacing
import PocketCalc.Proofs.History.Roundtrip

namespace PocketCalc

/-- A text is read back from its bytes. -/
theorem fromUTF8?_toUTF8 (s : String) : String.fromUTF8? s.toUTF8 = some s := by
  unfold String.fromUTF8? String.toUTF8
  rw [dif_pos s.isValidUTF8]
  rfl

namespace FileStore

variable {s s' : FileStore} {fates : List Disk.Fate} {h : History} {r : Record}

/-! ## §1. Writing. -/

/-- Writing runs the plan on the disk, and changes nothing else of the store. -/
theorem writeUnder_run (s : FileStore) (fates : List Disk.Fate) (h : History) :
    ∃ d' outcome, s.disk.runUnder fates (Disk.replacePlan s.path h.encode.toUTF8) = (d', outcome)
      ∧ s.writeUnder fates h = ({ s with disk := d' }, outcome.mapError HistoryError.ofAccess) :=
  ⟨_, _, rfl, rfl⟩

/-- **THE OLD DOCUMENT OR THE NEW ONE.**  Whatever calls are carried out, fail or are cut,
and however much of the temporary file is written then: at the place that the path leads
to there is the file that was there, or none as before, or the whole new document.  If
the writing succeeds it is the new document, and no temporary file is left.  The two
paths are never the same: whatever dots a file name has, it is not its own temporary
name. -/
theorem write_atomic (s : FileStore) (fates : List Disk.Fate) (h : History) :
    let content := h.encode.toUTF8
    let s' := (s.writeUnder fates h).1
    (∀ place, s'.disk.walk s.path = .ok place →
        s'.disk.fileAt? place = s.disk.fileAt? place ∨ s'.disk.fileAt? place = some content)
      ∧ (∀ place, s.disk.walk s.path = .ok place →
          s'.disk.read s.path = s.disk.read s.path ∨ s'.disk.read s.path = .ok content)
      ∧ ((s.writeUnder fates h).2 = .ok () →
          s'.disk.read s.path = .ok content
            ∧ s'.disk.read s.path.temporary = .error .notFound)
      ∧ ∀ (dir : Path) (name : String), name ≠ Path.back →
          (dir ++ [name]).temporary ≠ dir ++ [name] := by
  intro content s'
  obtain ⟨d', outcome, hrun, hwrite⟩ := writeUnder_run s fates h
  have hs' : s'.disk = d' := congrArg (fun x => x.1.disk) hwrite
  rw [hs', hwrite]
  refine ⟨fun place hwalk => ?_, fun place hwalk => ?_, fun hok => ?_,
    fun dir name hname => Path.temporary_ne dir hname⟩
  · exact (Disk.replace_fileAt? hrun hwalk).imp And.right And.right
  · exact (Disk.replace_read hrun hwalk).imp And.right And.right
  · cases outcome with
    | error e => cases hok
    | ok _ => exact Disk.read_of_replace hrun

/-! ## §2. What is there. -/

/-- The store has these records: they can be read, or there is no file and there are
none.  A path with a missing directory leads to no file, even if it goes back behind it. -/
def Holds (s : FileStore) (h : History) : Prop :=
  s.read = .ok h ∨ s.read = .error .absent ∧ h = []

theorem Holds.unique {h₁ h₂ : History} (h : s.Holds h₁) (h' : s.Holds h₂) : h₁ = h₂ := by
  rcases h with hread | ⟨habsent, rfl⟩
  · rcases h' with hread' | ⟨habsent', rfl⟩
    · exact Except.ok.inj (hread.symm.trans hread')
    · exact nomatch hread.symm.trans habsent'
  · rcases h' with hread' | ⟨habsent', rfl⟩
    · exact nomatch habsent.symm.trans hread'
    · rfl

/-- What has an error but the absence of the file has no records. -/
theorem Holds.read_ne {e : HistoryError} (hholds : s.Holds h) (he : e ≠ .absent) :
    s.read ≠ .error e := by
  rcases hholds with hread | ⟨habsent, -⟩
  · exact fun herror => nomatch hread.symm.trans herror
  · exact fun herror => he (Except.error.inj (herror.symm.trans habsent))

/-- Records that can be read are read from the bytes of the file. -/
theorem exists_bytes (hread : s.read = .ok h) :
    ∃ bytes text, s.disk.read s.path = .ok bytes ∧ String.fromUTF8? bytes = some text
      ∧ History.decode text = .ok h := by
  unfold read at hread
  split at hread
  · next bytes hbytes =>
    split at hread
    · next text htext => exact ⟨bytes, text, hbytes, htext, hread⟩
    · cases hread
  · cases hread

theorem Holds.isNormal (hholds : s.Holds h) : h.IsNormal := by
  rcases hholds with hread | ⟨-, rfl⟩
  · obtain ⟨_, _, -, -, hdecode⟩ := exists_bytes hread
    exact isNormal_of_decode hdecode
  · exact fun _ hr => nomatch hr

theorem read_congr (h : s'.disk.read s'.path = s.disk.read s.path) : s'.read = s.read := by
  unfold read
  rw [h]

/-! ## §3. One record. -/

/-- A call of the disk fails when a record is appended: the one that reads the file, or
one of those that write the new history. -/
def AppendFails (s : FileStore) (fates : List Disk.Fate) (h : History) : Prop :=
  fates.headD .carriedOut ≠ .carriedOut
    ∨ ∃ e, (s.disk.runUnder fates.tail (Disk.replacePlan s.path h.encode.toUTF8)).2 = .error e

/-- **What becomes of one record**, whatever calls fail. -/
structure Appends (s : FileStore) (fates : List Disk.Fate) (r : Record) (s' : FileStore) :
    Prop where
  path : s'.path = s.path
  /-- The record is the last one from now on, or a call failed and the file is as it was. -/
  readable : ∀ h, s.Holds h →
    (∃ r', s'.read = .ok (h ++ [r']) ∧ r'.Restores r)
      ∨ s.AppendFails fates (h ++ [r]) ∧ s.disk.KeepsFile s.path s'.disk
  /-- If the file cannot be read, nothing is changed, and it still cannot be read. -/
  unreadable : ∀ e, s.read = .error e → e ≠ .absent → s'.disk = s.disk ∧ s'.read = .error e
  /-- No file is changed but this one and its temporary one. -/
  elsewhere : ∀ place, s'.disk.walk s.path ≠ .ok place →
    s'.disk.walk s.path.temporary ≠ .ok place → s'.disk.fileAt? place = s.disk.fileAt? place
  directories : s.disk.KeepsDirectories s'.disk

/-- The new history is read back, and only its last record may be spelled otherwise. -/
theorem exists_restored (hnormal : h.IsNormal) (r : Record) :
    ∃ r', History.decode (History.encode (h ++ [r])) = .ok (h ++ [r']) ∧ r'.Restores r := by
  obtain ⟨h', hread, hrestores⟩ := exists_decode_encode (h ++ [r])
  -- The old records are in normal form, so they come back as they were.
  have hfront : h'.take h.length = h :=
    History.Restores.eq (List.forall₂_take_append h' h [r] hrestores) hnormal
  have hback := List.forall₂_drop_append h' h [r] hrestores
  obtain ⟨r', hlast⟩ : ∃ r', h'.drop h.length = [r'] :=
    List.length_eq_one_iff.1 (by simpa using hback.length_eq)
  have hsplit := List.take_append_drop h.length h'
  rw [hfront, hlast] at hsplit
  rw [hlast] at hback
  cases hback with
  | cons hr _ => exact ⟨r', by rw [hread, hsplit], hr⟩

/-- A record is given up, or it is written behind the records that are there. -/
theorem appendUnder_cases (s : FileStore) (fates : List Disk.Fate) (r : Record) :
    (s.appendUnder fates r).value = s
        ∧ (fates.headD .carriedOut ≠ .carriedOut ∨ ∃ e, s.read = .error e ∧ e ≠ .absent)
      ∨ ∃ h, s.Holds h
        ∧ (s.appendUnder fates r).value = (s.writeUnder fates.tail (h ++ [r])).1 := by
  have hsave : ∀ h, (s.saveUnder fates.tail h).value = (s.writeUnder fates.tail h).1 := by
    intro h
    unfold saveUnder
    split
    · next heq => rw [heq]
    · next heq => rw [heq]
  unfold appendUnder
  cases hfate : fates.headD .carriedOut with
  | interrupted n => exact .inl ⟨rfl, .inl fun h => nomatch h⟩
  | carriedOut =>
    unfold readUnder
    dsimp only
    split
    · next h hread => exact .inr ⟨h, .inl hread, hsave _⟩
    · next hread => exact .inr ⟨[], .inr ⟨hread, rfl⟩, hsave _⟩
    · next e he hread => exact .inl ⟨rfl, .inr ⟨e, hread, he⟩⟩

/-- What a record does that is written behind the records that are there. -/
theorem appends_write (hholds : s.Holds h) (r : Record) :
    s.Appends fates r (s.writeUnder fates.tail (h ++ [r])).1 := by
  obtain ⟨d', outcome, hrun, hwrite⟩ := writeUnder_run s fates.tail (h ++ [r])
  rw [hwrite]
  refine ⟨rfl, fun h₁ hholds₁ => ?_, fun e he habsent => absurd he (hholds.read_ne habsent),
    fun place => Disk.replace_elsewhere hrun, Disk.replace_keepsDirectories hrun⟩
  obtain rfl : h = h₁ := hholds.unique hholds₁
  cases outcome with
  | error e =>
    exact .inr ⟨.inr ⟨e, congrArg Prod.snd hrun⟩, Disk.keepsFile_of_replace hrun⟩
  | ok _ =>
    obtain ⟨r', hdecode, hrestores⟩ := exists_restored hholds.isNormal r
    refine .inl ⟨r', ?_, hrestores⟩
    unfold FileStore.read
    dsimp only
    rw [(Disk.read_of_replace hrun).1]
    dsimp only
    rw [fromUTF8?_toUTF8]
    exact hdecode

/-- **One record comes**, whatever calls fail. -/
theorem appends_appendUnder (s : FileStore) (fates : List Disk.Fate) (r : Record) :
    s.Appends fates r (s.appendUnder fates r).value := by
  rcases appendUnder_cases s fates r with ⟨hsame, hreason⟩ | ⟨h, hholds, hwrite⟩
  · -- Without a history there is none to keep; with one, its reading was interrupted.
    rw [hsame]
    refine ⟨rfl, fun h hholds => .inr ⟨.inl ?_, fun _ _ => rfl, fun _ _ => rfl⟩,
      fun _ herror _ => ⟨rfl, herror⟩, fun _ _ _ => rfl, fun _ => id⟩
    rcases hreason with hfate | ⟨e, herror, he⟩
    · exact hfate
    · exact absurd herror (hholds.read_ne he)
  · rw [hwrite]
    exact appends_write hholds r

/-! ## §4. Any records. -/

/-- A record that comes through some store at the same place, and the fates of the calls
of the disk. -/
structure Appending where
  /-- The text by which the log names the place. -/
  name : String
  record : Record
  fates : List Disk.Fate

/-- The store after a record. -/
def receive (s : FileStore) (a : Appending) : FileStore :=
  (appendUnder { s with name := a.name } a.fates a.record).value

/-- The store after several records. -/
def receiveAll (s : FileStore) (as : List Appending) : FileStore := as.foldl receive s

/-- The name is only told to the log. -/
theorem appends_receive (s : FileStore) (a : Appending) :
    s.Appends a.fates a.record (s.receive a) := by
  obtain ⟨hpath, hreadable, hunreadable, helsewhere, hdirectories⟩ :=
    appends_appendUnder { s with name := a.name } a.fates a.record
  exact ⟨hpath, hreadable, hunreadable, helsewhere, hdirectories⟩

/-- Records that can be read can be read for ever; more may come behind them. -/
theorem read_receiveAll (hread : s.read = .ok h) (as : List Appending) :
    ∃ kept added : History, kept.Sublist (as.map Appending.record) ∧ added.Restores kept
      ∧ (s.receiveAll as).read = .ok (h ++ added) := by
  induction as generalizing s h with
  | nil => exact ⟨[], [], .slnil, .nil, by rwa [List.append_nil]⟩
  | cons a as ih =>
    have happends := appends_receive s a
    rcases happends.readable h (.inl hread) with ⟨r', hread', hr'⟩ | ⟨-, hkeeps⟩
    · obtain ⟨kept, added, hsub, hrestores, hall⟩ := ih hread'
      refine ⟨a.record :: kept, r' :: added, hsub.cons_cons _, .cons hr' hrestores, ?_⟩
      rwa [List.append_assoc] at hall
    · -- The file is as it was, and so are its records.
      obtain ⟨bytes, -, hbytes, -⟩ := exists_bytes hread
      obtain ⟨place, hwalk, -⟩ := Disk.read_eq_ok_iff.1 hbytes
      have hsame : (s.receive a).read = s.read :=
        read_congr (by rw [happends.path, hkeeps.read_eq place hwalk])
      obtain ⟨kept, added, hsub, hrestores, hall⟩ := ih (hsame.trans hread)
      exact ⟨kept, added, hsub.cons _, hrestores, hall⟩

/-- A file that cannot be read is left alone for ever. -/
theorem unreadable_receiveAll {e : HistoryError} (hread : s.read = .error e) (he : e ≠ .absent)
    (as : List Appending) :
    (s.receiveAll as).disk = s.disk ∧ (s.receiveAll as).read = .error e := by
  induction as generalizing s with
  | nil => exact ⟨rfl, hread⟩
  | cons a as ih =>
    obtain ⟨hdisk, hread'⟩ := (appends_receive s a).unreadable e hread he
    obtain ⟨hrest, hlast⟩ := ih hread'
    exact ⟨hrest.trans hdisk, hlast⟩

/-- No directory goes away, and no other file is ever changed. -/
theorem frame_receiveAll (s : FileStore) (as : List Appending) :
    let s' := s.receiveAll as
    s'.path = s.path ∧ s.disk.KeepsDirectories s'.disk
      ∧ ∀ place, s'.disk.walk s.path ≠ .ok place →
          s'.disk.walk s.path.temporary ≠ .ok place →
          s'.disk.fileAt? place = s.disk.fileAt? place := by
  induction as generalizing s with
  | nil => exact ⟨rfl, fun _ => id, fun _ _ _ => rfl⟩
  | cons a as ih =>
    obtain ⟨hpath, hkeeps, hframe⟩ := ih (s.receive a)
    have happends := appends_receive s a
    rw [happends.path] at hpath hframe
    refine ⟨hpath, fun q hdir => hkeeps q (happends.directories q hdir), ?_⟩
    intro place hfile htemporary
    -- Wherever the paths led before, they lead now.
    have hbefore := happends.elsewhere place (fun hwalk => hfile (Disk.walk_mono hkeeps hwalk))
      fun hwalk => htemporary (Disk.walk_mono hkeeps hwalk)
    exact (hframe place hfile htemporary).trans hbefore

/-- **THE JOURNAL IS KEPT.**  Records come at one place of any disk, and of every call of
the disk any may fail.  Each record that comes is the last one from then on, behind the
records that were there, or a call failed and the file is as it was; and if the file
cannot be read, nothing is changed at all.  So records that could be read at the start
are the first ones ever after, a file that could not be read is still the same, and no
other file was touched but the temporary one. -/
theorem journal_kept (s : FileStore) (as : List Appending) :
    let s' := s.receiveAll as
    (∀ a : Appending, s'.Appends a.fates a.record (s'.receive a))
      ∧ (∀ h, s.read = .ok h → ∃ kept added : History,
          kept.Sublist (as.map Appending.record) ∧ added.Restores kept
            ∧ s'.read = .ok (h ++ added))
      ∧ (∀ e, s.read = .error e → e ≠ .absent → s'.disk = s.disk ∧ s'.read = .error e)
      ∧ s'.path = s.path
      ∧ ∀ place, s'.disk.walk s.path ≠ .ok place →
          s'.disk.walk s.path.temporary ≠ .ok place →
          s'.disk.fileAt? place = s.disk.fileAt? place := by
  intro s'
  obtain ⟨hpath, -, hframe⟩ := frame_receiveAll s as
  exact ⟨appends_receive s', fun h hread => read_receiveAll hread as,
    fun e hread he => unreadable_receiveAll hread he as, hpath, hframe⟩

end FileStore

end PocketCalc
