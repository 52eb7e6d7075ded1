/-
  PocketCalc.Proofs.Disk.Places
  ─────────────────────────────
  **PLACES, AND THE WALKS THAT LEAD TO THEM.**

  A path leads to a place, and what stands at the place is told by the disk alone.
  A walk only asks for directories: as long as no directory goes away, a path that
  leads somewhere leads there for ever.

      walk_mono               walks outlive every change that keeps the directories
      temporary_ne            a file name differs from its temporary one
      place_temporary_ne      and so do the places, unless a directory stands there
      *_cases                 what each call changes, place by place
-/
import PocketCalc.Disk.Basic

namespace PocketCalc

/-! ## §1. Temporary names. -/

namespace Path

/-- A name with the temporary extension loses no more than the last part of it. -/
theorem stem_temporaryExtension (cs : List Char) :
    stem (cs ++ temporaryExtension) = cs ++ ".json".toList := by
  have hsplit : ((cs ++ temporaryExtension).reverse.dropWhile (· != '.')).drop 1
      = "nosj.".toList ++ cs.reverse := by
    rw [List.reverse_append]
    rfl
  unfold stem
  rw [hsplit]
  show ("nosj.".toList ++ cs.reverse).reverse = _
  rw [List.reverse_append, List.reverse_reverse]
  rfl

/-- **No name is its own temporary name**, whatever its dots are. -/
theorem stem_append_ne (cs : List Char) : stem cs ++ temporaryExtension ≠ cs := by
  intro h
  have hstem := stem_temporaryExtension (stem cs)
  rw [h] at hstem
  have hlength := congrArg List.length hstem
  rw [List.length_append] at hlength
  have hpos : 0 < ".json".toList.length := by decide
  omega

/-- The temporary name of a file. -/
def temporaryName (name : String) : String :=
  String.ofList (stem name.toList ++ temporaryExtension)

theorem temporaryName_ne (name : String) : temporaryName name ≠ name := by
  intro h
  have hlist := congrArg String.toList h
  unfold temporaryName at hlist
  rw [String.toList_ofList] at hlist
  exact stem_append_ne _ hlist

/-- A name with an extension does not go back. -/
theorem temporaryName_ne_back (name : String) : temporaryName name ≠ back := by
  intro h
  have hlength := congrArg (fun s => s.toList.length) h
  unfold temporaryName at hlength
  simp only [String.toList_ofList, List.length_append] at hlength
  have hlong : back.toList.length < temporaryExtension.length := by decide
  omega

/-- The temporary file stands beside the file. -/
theorem temporary_concat (dir : Path) {name : String} (hname : name ≠ back) :
    temporary (dir ++ [name]) = dir ++ [temporaryName name] := by
  unfold temporary
  rw [List.getLast?_concat]
  dsimp only
  rw [if_neg (by simpa using hname), List.dropLast_concat]
  rfl

theorem temporary_back (dir : Path) : temporary (dir ++ [back]) = dir ++ [back] := by
  unfold temporary
  rw [List.getLast?_concat]
  rfl

/-- The directories on the way to a file do not depend on its name. -/
theorem ancestors_concat (dir : Path) (name : String) :
    ancestors (dir ++ [name]) = ((List.range (dir.length + 1)).drop 1).map dir.take := by
  unfold ancestors
  rw [List.length_append, List.length_singleton]
  refine List.map_congr_left fun k hk => ?_
  have hlt := List.mem_range.1 (List.mem_of_mem_drop hk)
  rw [List.take_append_of_le_length (by omega)]

/-- **A path and its temporary path have the same directories on the way.** -/
theorem ancestors_temporary (p : Path) : p.temporary.ancestors = p.ancestors := by
  rcases List.eq_nil_or_concat p with rfl | ⟨dir, name, rfl⟩
  · rfl
  · rw [List.concat_eq_append]
    by_cases hname : name = back
    · rw [hname, temporary_back]
    · rw [temporary_concat dir hname, ancestors_concat, ancestors_concat]

/-- **A path with a file name differs from its temporary path.** -/
theorem temporary_ne (dir : Path) {name : String} (hname : name ≠ back) :
    temporary (dir ++ [name]) ≠ dir ++ [name] := by
  rw [temporary_concat dir hname]
  intro h
  exact temporaryName_ne name (List.singleton_inj.1 (List.append_cancel_left h))

end Path

namespace Disk

variable {d d' : Disk}

/-! ## §2. What stands at a place. -/

/-- The bytes of the file at a place, if a file stands there. -/
def fileAt? (d : Disk) (place : Path) : Option ByteArray :=
  match d.node? place with
  | some (.file content) => some content
  | _ => none

theorem fileAt?_eq_some {place : Path} {content : ByteArray} :
    d.fileAt? place = some content ↔ d.node? place = some (.file content) := by
  unfold fileAt?
  split
  · next h => simp [h]
  · next h =>
    constructor
    · exact fun h' => nomatch h'
    · exact fun h' => absurd h' (h content)

theorem node?_nil (d : Disk) : d.node? [] = some .directory := rfl

theorem ne_nil_of_node? {place : Path} (h : d.node? place ≠ some .directory) : place ≠ [] := by
  rintro rfl
  exact h d.node?_nil

theorem lookup_remove (entries : List (Path × Node)) (p q : Path) :
    (entries.filter fun e => e.1 != p).lookup q = if q = p then none else entries.lookup q := by
  induction entries with
  | nil => simp
  | cons entry entries ih =>
    obtain ⟨r, n⟩ := entry
    by_cases hr : r = p
    · subst hr
      rw [List.filter_cons_of_neg (by simp), ih]
      split
      · rfl
      · next hq => rw [List.lookup_cons, beq_false_of_ne hq]
    · rw [List.filter_cons_of_pos (by simpa using hr), List.lookup_cons, List.lookup_cons, ih]
      by_cases hq : q = r
      · subst hq
        simp [hr]
      · rw [beq_false_of_ne hq]

theorem node?_remove {p : Path} (hp : p ≠ []) (q : Path) :
    (d.remove p).node? q = if q = p then none else d.node? q := by
  unfold node? remove
  by_cases hq : q = []
  · rw [if_pos hq, if_pos hq, if_neg (hq ▸ hp.symm)]
  · rw [if_neg hq, if_neg hq]
    exact lookup_remove _ _ _

theorem node?_set {p : Path} (hp : p ≠ []) (n : Node) (q : Path) :
    (d.set p n).node? q = if q = p then some n else d.node? q := by
  by_cases hq : q = p
  · subst hq
    unfold node? set
    rw [if_neg hp, if_pos rfl, List.lookup_cons, beq_self_eq_true]
  · have hrest : (d.set p n).node? q = (d.remove p).node? q := by
      unfold node? set
      dsimp only
      rw [List.lookup_cons, beq_false_of_ne hq]
    rw [hrest, node?_remove hp, if_neg hq, if_neg hq]

/-! ## §3. Walks. -/

/-- A name that is short enough and has no zero character can be given to a node. -/
theorem isName_of {name : String} (hshort : name.utf8ByteSize ≤ maxNameBytes)
    (hzero : '\x00' ∉ name.toList) : isName name = true := by
  unfold isName
  rw [String.contains_char_eq]
  simpa using ⟨hshort, hzero⟩

/-- In a directory a walk goes on to the place with the next name. -/
theorem walkFrom_name {base rest : Path} {name : String} (hdir : d.node? base = some .directory)
    (hback : name ≠ Path.back) (hname : isName name = true) :
    d.walkFrom base (name :: rest) = d.walkFrom (base ++ [name]) rest := by
  rw [walkFrom, hdir]
  dsimp only
  rw [if_neg hback, if_pos hname]

/-- A walk goes along two paths, one after the other. -/
theorem walkFrom_append (d : Disk) (base p q : Path) :
    d.walkFrom base (p ++ q) = (d.walkFrom base p).bind fun place => d.walkFrom place q := by
  induction p generalizing base with
  | nil => rfl
  | cons name p ih =>
    rw [List.cons_append, walkFrom, walkFrom]
    cases d.node? base with
    | none => rfl
    | some n =>
      cases n with
      | file content => rfl
      | directory =>
        dsimp only
        split
        · exact ih _
        · split
          · exact ih _
          · rfl

/-- The last step of a walk. -/
theorem walk_concat_cases {dir place : Path} {name : String}
    (h : d.walk (dir ++ [name]) = .ok place) :
    ∃ base, d.walk dir = .ok base ∧ d.node? base = some .directory
      ∧ (name = Path.back ∧ place = base.dropLast
        ∨ name ≠ Path.back ∧ isName name = true ∧ place = base ++ [name]) := by
  unfold walk at h
  rw [walkFrom_append] at h
  unfold walk
  cases hbase : d.walkFrom [] dir with
  | error e =>
    rw [hbase] at h
    cases h
  | ok base =>
    refine ⟨base, rfl, ?_⟩
    rw [hbase] at h
    change d.walkFrom base [name] = .ok place at h
    rw [walkFrom] at h
    split at h
    · next hdir =>
      refine ⟨hdir, ?_⟩
      split at h
      · next hback =>
        cases h
        exact .inl ⟨hback, rfl⟩
      · next hback =>
        split at h
        · next hname =>
          cases h
          exact .inr ⟨hback, hname, rfl⟩
        · cases h
    · cases h
    · cases h

/-- No directory goes away from the one disk to the other. -/
def KeepsDirectories (d d' : Disk) : Prop :=
  ∀ place, d.node? place = some .directory → d'.node? place = some .directory

theorem walkFrom_mono (h : d.KeepsDirectories d') {base p place : Path}
    (hwalk : d.walkFrom base p = .ok place) : d'.walkFrom base p = .ok place := by
  induction p generalizing base with
  | nil => exact hwalk
  | cons name p ih =>
    rw [walkFrom] at hwalk ⊢
    split at hwalk
    · next hdir =>
      rw [h base hdir]
      dsimp only
      split at hwalk
      · next hback =>
        rw [if_pos hback]
        exact ih hwalk
      · next hback =>
        rw [if_neg hback]
        split at hwalk
        · next hname =>
          rw [if_pos hname]
          exact ih hwalk
        · cases hwalk
    · cases hwalk
    · cases hwalk

/-- **A path leads where it led**, as long as no directory goes away. -/
theorem walk_mono (h : d.KeepsDirectories d') {p place : Path} (hwalk : d.walk p = .ok place) :
    d'.walk p = .ok place := walkFrom_mono h hwalk

/-- Every place on the way is a directory. -/
def IsInside (d : Disk) (place : Path) : Prop :=
  ∀ n < place.length, d.node? (place.take n) = some .directory

theorem isInside_walkFrom {base p place : Path} (hbase : d.IsInside base)
    (hwalk : d.walkFrom base p = .ok place) : d.IsInside place := by
  induction p generalizing base with
  | nil =>
    cases hwalk
    exact hbase
  | cons name p ih =>
    rw [walkFrom] at hwalk
    split at hwalk
    · next hdir =>
      split at hwalk
      · refine ih (fun n hn => ?_) hwalk
        rw [List.length_dropLast] at hn
        rw [List.dropLast_eq_take, List.take_take, Nat.min_eq_left (by omega)]
        exact hbase n (by omega)
      · split at hwalk
        · refine ih (fun n hn => ?_) hwalk
          rw [List.length_append, List.length_singleton] at hn
          rcases Nat.lt_or_ge n base.length with hlt | hge
          · rw [List.take_append_of_le_length (Nat.le_of_lt hlt)]
            exact hbase n hlt
          · -- The step led from the base, which is a directory.
            have hlength : n = base.length := by omega
            rw [hlength, List.take_left]
            exact hdir
        · cases hwalk
    · cases hwalk
    · cases hwalk

/-- Going back leads to a directory. -/
theorem node?_dropLast_of_walk {p place : Path} (hwalk : d.walk p = .ok place) :
    d.node? place.dropLast = some .directory := by
  have hinside : d.IsInside place := isInside_walkFrom (fun n hn => absurd hn (by simp)) hwalk
  rcases List.eq_nil_or_concat place with rfl | ⟨front, name, rfl⟩
  · exact d.node?_nil
  · have hfront := hinside front.length (by simp)
    rw [List.concat_eq_append, List.take_left] at hfront
    rwa [List.concat_eq_append, List.dropLast_concat]

/-- **A file and its temporary file have different places.**  The two paths are the same
only if the path goes back in its last step, and then it leads to a directory. -/
theorem place_temporary_ne {p target place : Path} (htarget : d.walk p = .ok target)
    (hplace : d.walk p.temporary = .ok place) (hfile : d.node? place ≠ some .directory) :
    place ≠ target := by
  rcases List.eq_nil_or_concat p with rfl | ⟨dir, name, rfl⟩
  · cases hplace
    exact absurd d.node?_nil hfile
  · rw [List.concat_eq_append] at htarget hplace
    by_cases hback : name = Path.back
    · subst hback
      rw [Path.temporary_back] at hplace
      obtain ⟨base, hbase, -, ⟨-, rfl⟩ | ⟨hne, -⟩⟩ := walk_concat_cases hplace
      · exact absurd (node?_dropLast_of_walk hbase) hfile
      · exact absurd rfl hne
    · rw [Path.temporary_concat dir hback] at hplace
      obtain ⟨base, hbase, -, ⟨h, -⟩ | ⟨-, -, rfl⟩⟩ := walk_concat_cases hplace
      · exact absurd h (Path.temporaryName_ne_back name)
      · obtain ⟨base', hbase', -, ⟨h, -⟩ | ⟨-, -, rfl⟩⟩ := walk_concat_cases htarget
        · exact absurd h hback
        · -- Both names are put behind the same directory.
          obtain rfl : base = base' := Except.ok.inj (hbase.symm.trans hbase')
          intro h
          exact Path.temporaryName_ne name (List.singleton_inj.1 (List.append_cancel_left h))

/-! ## §4. What the calls change. -/

/-- What is read is the file at the place that the path leads to. -/
theorem read_eq_ok_iff {p : Path} {content : ByteArray} :
    d.read p = .ok content
      ↔ ∃ place, d.walk p = .ok place ∧ d.fileAt? place = some content := by
  simp only [fileAt?_eq_some]
  unfold read find
  cases hwalk : d.walk p with
  | error e => simp
  | ok place =>
    dsimp only
    cases hnode : d.node? place with
    | none => simp [hnode]
    | some n =>
      cases n with
      | file c => simp [hnode]
      | directory => simp [hnode]

/-- One place gets another node, all others stay. -/
def Puts (d : Disk) (place : Path) (n : Option Node) (d' : Disk) : Prop :=
  ∀ q, d'.node? q = if q = place then n else d.node? q

theorem puts_set {place : Path} (h : d.node? place ≠ some .directory) (n : Node) :
    d.Puts place (some n) (d.set place n) :=
  node?_set (ne_nil_of_node? h) n

/-- A file can be put wherever no directory stands. -/
theorem putFile_of_walk {p place : Path} (content : ByteArray) (hwalk : d.walk p = .ok place)
    (hfile : d.node? place ≠ some .directory) :
    d.putFile p content = .ok (d.set place (.file content)) := by
  unfold putFile
  rw [hwalk]
  dsimp only
  split
  · next hdir => exact absurd hdir hfile
  · rfl

theorem putFile_cases {p : Path} {content : ByteArray} (h : d.putFile p content = .ok d') :
    ∃ place, d.walk p = .ok place ∧ d.node? place ≠ some .directory
      ∧ d.Puts place (some (.file content)) d' := by
  unfold putFile at h
  split at h
  · next place hwalk =>
    split at h
    · cases h
    · next hfile =>
      cases h
      exact ⟨place, hwalk, hfile, puts_set hfile _⟩
  · cases h

theorem takeFile_cases {p : Path} (h : d.takeFile p = .ok d') :
    ∃ place content, d.walk p = .ok place ∧ d.node? place = some (.file content)
      ∧ d.Puts place none d' := by
  unfold takeFile at h
  split at h
  · next place hwalk =>
    split at h
    · next content hfile =>
      cases h
      have hne : d.node? place ≠ some .directory := by simp [hfile]
      exact ⟨place, content, hwalk, hfile, node?_remove (ne_nil_of_node? hne)⟩
    · cases h
    · cases h
  · cases h

/-- Directories are made where nothing is. -/
theorem makeDirectory_cases {p : Path} (h : d.makeDirectory p = .ok d') :
    ∃ place, d.walk p = .ok place ∧ d.Puts place (some .directory) d'
      ∧ (d.node? place = some .directory ∨ d.node? place = none) := by
  unfold makeDirectory at h
  split at h
  · next place hwalk =>
    split at h
    · next hdir =>
      cases h
      refine ⟨place, hwalk, fun q => ?_, .inl hdir⟩
      split
      · next hq => rw [hq, hdir]
      · rfl
    · cases h
    · next hnone =>
      cases h
      have hne : d.node? place ≠ some .directory := by simp [hnone]
      exact ⟨place, hwalk, puts_set hne _, .inr hnone⟩
  · cases h

end Disk

end PocketCalc
