import Routespec.FileTree

/-!
# What making folders and writing files changes

A folder is made where nothing was, and a file is written where no folder was. So folders stay
where they are, and a path that led somewhere leads there still.
-/

namespace Routespec

namespace FileTree

variable {t before middle after made : FileTree} {a b : FileAddress} {steps : List PathStep}
variable {path content : String}

/-- Where a step leads from a folder. -/
def stepFrom? (a : FileAddress) : PathStep → Option FileAddress
  | .empty | .here => some a
  | .up => some a.parent
  | .down name => if FilePath.maxNameBytes < name.utf8ByteSize then none else some (a.child name)

theorem follow_cons_eq_ok {step : PathStep} : t.follow a (step :: steps) = .ok b ↔
    t.get? a = some .folder ∧ ∃ c, stepFrom? a step = some c ∧ t.follow c steps = .ok b := by
  cases step <;> rw [follow] <;> rcases t.get? a with _ | ⟨_⟩ | _ <;> simp [stepFrom?]
  case down.some.folder name =>
    by_cases hlong : FilePath.maxNameBytes < name.utf8ByteSize
    · simp [hlong, Nat.not_le.mpr hlong]
    · simp [hlong, Nat.not_lt.mp hlong]

/-- Folders may have been made where nothing was, and the addresses in `written` may have got a
file. Nothing else has changed. -/
def Changed (before after : FileTree) (written : List FileAddress) : Prop :=
  ∀ a, after.get? a = before.get? a ∨
    (before.get? a = none ∧ after.get? a = some .folder) ∨
    (a ∈ written ∧ before.get? a ≠ some .folder ∧ ∃ content, after.get? a = some (.file content))

namespace Changed

variable {written more : List FileAddress}

theorem refl (t : FileTree) : t.Changed t [] := fun _ => .inl rfl

theorem trans (h₁ : before.Changed middle written) (h₂ : middle.Changed after more) :
    before.Changed after (written ++ more) := by
  intro a
  rcases h₂ a with hsame | ⟨hnone, hfolder⟩ | ⟨hmem, hmiddle, hfile⟩
  · rw [hsame]
    rcases h₁ a with h | h | ⟨hmem, h⟩
    · exact .inl h
    · exact .inr (.inl h)
    · exact .inr (.inr ⟨List.mem_append_left _ hmem, h⟩)
  · rcases h₁ a with h | ⟨-, h⟩ | ⟨-, -, c, h⟩
    · exact .inr (.inl ⟨h ▸ hnone, hfolder⟩)
    · rw [hnone] at h
      contradiction
    · rw [hnone] at h
      contradiction
  · refine .inr (.inr ⟨List.mem_append_right _ hmem, ?_, hfile⟩)
    rcases h₁ a with h | ⟨h, -⟩ | ⟨-, h, -⟩
    · exact h ▸ hmiddle
    · rw [h]
      nofun
    · exact h

/-- Folders stay. -/
theorem folder (h : before.Changed after written) (ha : before.get? a = some .folder) :
    after.get? a = some .folder := by
  rcases h a with hsame | ⟨hnone, -⟩ | ⟨-, hne, -⟩
  · rw [hsame, ha]
  · rw [hnone] at ha
    contradiction
  · exact absurd ha hne

/-- No file but the written ones comes, goes or changes. -/
theorem file_iff (h : before.Changed after written) (ha : a ∉ written) (content : String) :
    after.get? a = some (.file content) ↔ before.get? a = some (.file content) := by
  rcases h a with hsame | ⟨hnone, hfolder⟩ | ⟨hmem, -⟩
  · rw [hsame]
  · rw [hnone, hfolder]
    simp
  · exact absurd hmem ha

theorem file_iff_of_ne (h : before.Changed after [b]) (ha : a ≠ b) (content : String) :
    after.get? a = some (.file content) ↔ before.get? a = some (.file content) :=
  h.file_iff (fun hmem => ha (List.mem_singleton.mp hmem)) content

theorem isSome (h : before.Changed after written) (ha : (before.get? a).isSome) :
    (after.get? a).isSome := by
  rcases h a with hsame | ⟨-, hfolder⟩ | ⟨-, -, c, hfile⟩
  · rw [hsame, ha]
  · rw [hfolder, Option.isSome_some]
  · rw [hfile, Option.isSome_some]

/-- Steps that led somewhere lead there still, as they go through folders only. -/
theorem follow (h : before.Changed after written) (hsteps : before.follow a steps = .ok b) :
    after.follow a steps = .ok b := by
  induction steps generalizing a with
  | nil => exact hsteps
  | cons step steps ih =>
    obtain ⟨hfolder, c, hc, hrest⟩ := follow_cons_eq_ok.mp hsteps
    exact follow_cons_eq_ok.mpr ⟨h.folder hfolder, c, hc, ih hrest⟩

theorem locate (h : before.Changed after written) (ha : before.locate path = .ok a) :
    after.locate path = .ok a := by
  simp only [FileTree.locate] at ha ⊢
  cases hstart : startOf path with
  | error e =>
    rw [hstart] at ha
    simp [bind, Except.bind] at ha
  | ok start =>
    rw [hstart] at ha
    exact h.follow ha

/-- What was there is there still. -/
theorem isPresent (h : before.Changed after written) (hpath : before.isPresent path = true) :
    after.isPresent path = true := by
  rw [FileTree.isPresent] at hpath ⊢
  cases ha : before.locate path with
  | error e => simp [ha] at hpath
  | ok a =>
    rw [ha] at hpath
    rw [h.locate ha]
    exact h.isSome hpath

end Changed

/-- Making folders along a path makes folders only. -/
theorem changed_of_makeAlong (h : t.makeAlong a steps = .ok made) : t.Changed made [] := by
  fun_induction makeAlong t a steps with
  | case1 t a =>
    simp only [Except.ok.injEq] at h
    exact h ▸ .refl t
  | case2 t a steps ih => exact ih h
  | case3 t a steps ih => exact ih h
  | case4 t a steps ih => exact ih h
  | case5 t a name steps hfolder ih => exact ih h
  | case6 => simp at h
  | case7 => simp at h
  | case8 => simp at h
  | case9 t a name steps hnone hlong hidle ih =>
    have hset : t.Changed (t.set (a.child name) .folder) [] := by
      intro b
      rw [get?_set t (List.cons_ne_nil _ _)]
      by_cases hb : b = a.child name
      · rw [if_pos hb, hb]
        exact .inr (.inl ⟨hnone, rfl⟩)
      · rw [if_neg hb]
        exact .inl rfl
    exact hset.trans (ih h)

theorem changed_of_makeFolders (h : t.makeFolders path = .ok made) : t.Changed made [] := by
  rw [makeFolders] at h
  split at h
  · simp only [Except.ok.injEq] at h
    exact h ▸ .refl t
  · cases hstart : startOf path with
    | error e => simp [hstart, bind, Except.bind] at h
    | ok start =>
      rw [hstart] at h
      exact changed_of_makeAlong h

/-- A file is written where the path leads to, if no folder is there. -/
theorem write_eq_ok : t.write path content = .ok after ↔
    ∃ a, t.locate path = .ok a ∧ t.get? a ≠ some .folder ∧ after = t.set a (.file content) := by
  rw [write]
  cases ha : t.locate path with
  | error e => simp [bind, Except.bind]
  | ok a =>
    simp only [bind, Except.bind, Except.ok.injEq]
    constructor
    · intro h
      split at h
      · simp at h
      · rename_i hne
        simp only [pure, Except.pure, Except.ok.injEq] at h
        exact ⟨a, rfl, hne, h.symm⟩
    · rintro ⟨a', rfl, hne, rfl⟩
      split
      · exact absurd ‹_› hne
      · rfl

theorem names_ne_nil_of_get? (h : t.get? a ≠ some .folder) : a.names ≠ [] := by
  intro hnil
  rw [get?, if_pos hnil] at h
  exact h rfl

/-- Writing changes the file that the path leads to and nothing else. -/
theorem changed_of_write (h : t.write path content = .ok after) :
    ∃ a, after.locate path = .ok a ∧ after.get? a = some (.file content) ∧ t.Changed after [a] := by
  obtain ⟨a, hlocate, hne, rfl⟩ := write_eq_ok.mp h
  have hget := get?_set t (names_ne_nil_of_get? hne) (.file content)
  have hchanged : t.Changed (t.set a (.file content)) [a] := by
    intro b
    rw [hget]
    by_cases hb : b = a
    · subst hb
      rw [if_pos rfl]
      exact .inr (.inr ⟨List.mem_singleton_self b, hne, content, rfl⟩)
    · rw [if_neg hb]
      exact .inl rfl
  refine ⟨a, hchanged.locate hlocate, ?_, hchanged⟩
  rw [hget, if_pos rfl]

theorem read_eq_ok : t.read path = .ok content ↔
    ∃ a, t.locate path = .ok a ∧ t.get? a = some (.file content) := by
  rw [read]
  cases t.locate path with
  | error e => simp [bind, Except.bind]
  | ok a =>
    simp only [bind, Except.bind, Except.ok.injEq, exists_eq_left']
    split <;> simp_all [pure, Except.pure]

theorem follow_append {first second : List PathStep} :
    t.follow a (first ++ second) = .ok b ↔
      ∃ c, t.follow a first = .ok c ∧ t.follow c second = .ok b := by
  induction first generalizing a with
  | nil => simp [follow]
  | cons step first ih =>
    rw [List.cons_append, follow_cons_eq_ok]
    simp only [follow_cons_eq_ok, ih]
    constructor
    · rintro ⟨hfolder, c, hc, d, hd, hrest⟩
      exact ⟨d, ⟨hfolder, c, hc, hd⟩, hrest⟩
    · rintro ⟨d, ⟨hfolder, c, hc, hd⟩, hrest⟩
      exact ⟨hfolder, c, hc, d, hd, hrest⟩

/-- If something lies behind the steps, there is nothing to make along them. -/
theorem makeAlong_of_follow {step : PathStep} {tail : List PathStep}
    (h : t.follow a (steps ++ [step]) = .ok b) (htail : tail = [] ∨ tail = [.empty]) :
    t.makeAlong a (steps ++ tail) = .ok t := by
  induction steps generalizing a with
  | nil => rcases htail with rfl | rfl <;> rfl
  | cons first steps ih =>
    rw [List.cons_append] at h ⊢
    obtain ⟨-, c, hc, hrest⟩ := follow_cons_eq_ok.mp h
    cases first with
    | empty | here | up =>
      obtain rfl := Option.some.inj hc
      exact ih hrest
    | down name =>
      rw [stepFrom?] at hc
      split at hc
      · simp at hc
      · obtain rfl := Option.some.inj hc
        -- the next step starts in the child, so that is a folder
        have hfolder : t.get? (a.child name) = some .folder := by
          cases steps <;> exact (follow_cons_eq_ok.mp hrest).1
        rw [makeAlong, hfolder]
        exact ih hrest

end FileTree

namespace FilePath

variable {folder name : String} {p : FilePath}

/-- What stands before the last slash of a path into a folder is the path of the folder, which may
have a slash at its end itself. -/
theorem toList_join (name : String) (hfolder : folder ≠ "") :
    ∃ front, (join folder name).toList = front ++ '/' :: name.toList ∧
      (folder.toList = front ∨ folder.toList = front ++ ['/']) := by
  rw [join, if_neg hfolder]
  split
  · rename_i hlast
    obtain ⟨front, hfront⟩ := List.getLast?_eq_some_iff.mp hlast
    exact ⟨front, by simp [hfront], .inr hfront⟩
  · exact ⟨folder.toList, by simp, .inl rfl⟩

theorem ofText?_eq_some {t : Text} : ofText? t = some p ↔
    t ≠ [] ∧ '\x00' ∉ t ∧
      p = ⟨t.head? = some '/', (t.splitOnP (· = '/')).map PathStep.ofPart⟩ := by
  rw [ofText?]
  split
  · rename_i hbad
    simp only [reduceCtorEq, false_iff, not_and]
    intro hne hnull
    exact (hbad.elim hne hnull).elim
  · rename_i hok
    rw [not_or] at hok
    simp only [Option.some.injEq, hok.1, hok.2, ne_eq, not_false_eq_true, true_and]
    exact eq_comm

theorem splitOnP_of_no_slash {t : Text} (h : '/' ∉ t) : t.splitOnP (· = '/') = [t] :=
  List.splitOnP_eq_singleton fun c hc => decide_eq_false fun heq : c = '/' => h (heq ▸ hc)

/-- The path into a folder begins with the steps to the folder. -/
theorem ofText?_join (hfolder : folder ≠ "") (hslash : '/' ∉ name.toList)
    (h : ofText? (join folder name).toList = some p) :
    ∃ steps tail, p.steps = steps ++ [.ofPart name.toList] ∧ (tail = [] ∨ tail = [.empty]) ∧
      ofText? folder.toList = some ⟨p.isAbsolute, steps ++ tail⟩ := by
  have hne : folder.toList ≠ [] := by simpa using hfolder
  obtain ⟨front, hjoin, hfront⟩ := toList_join name hfolder
  obtain ⟨-, hnull, hp⟩ := ofText?_eq_some.mp h
  rw [hjoin] at hnull hp
  have hnull' : '\x00' ∉ folder.toList := by
    rcases hfront with hfront | hfront <;> simp_all
  have hhead : (front ++ '/' :: name.toList).head? = folder.toList.head? := by
    rcases hfront with hfront | hfront <;> cases front <;> simp_all
  rw [hhead, List.splitOnP_append_cons _ _ (by simp), splitOnP_of_no_slash hslash,
    List.map_append] at hp
  rcases hfront with hfront | hfront
  · refine ⟨_, [], congrArg steps hp, .inl rfl, ofText?_eq_some.mpr ⟨hne, hnull', ?_⟩⟩
    rw [hp, hfront, List.append_nil]
  · refine ⟨_, [.empty], congrArg steps hp, .inr rfl, ofText?_eq_some.mpr ⟨hne, hnull', ?_⟩⟩
    rw [hp, hfront, List.splitOnP_append_cons _ _ (by simp), List.map_append]
    rfl

end FilePath

namespace FileTree

variable {t : FileTree} {a : FileAddress} {folder name path : String}

theorem startOf_eq_ok {start : FileAddress × List PathStep} : startOf path = .ok start ↔
    path.utf8ByteSize ≤ FilePath.maxBytes ∧ ∃ p, FilePath.ofText? path.toList = some p ∧
      (if p.isAbsolute then ⟨.root, []⟩ else .working, p.steps) = start := by
  rw [startOf]
  split
  · rename_i hlong
    simp [Nat.not_le.mpr hlong]
  · rename_i hshort
    cases FilePath.ofText? path.toList <;> simp [Nat.not_lt.mp hshort]

theorem startOf_join {start : FileAddress × List PathStep} (hslash : '/' ∉ name.toList)
    (h : startOf (FilePath.join folder name) = .ok start) :
    ∃ steps, start.2 = steps ++ [.ofPart name.toList] ∧
      (folder = "" ∨ ∃ tail, (tail = [] ∨ tail = [.empty]) ∧
        startOf folder = .ok (start.1, steps ++ tail)) := by
  obtain ⟨hbytes, p, hp, rfl⟩ := startOf_eq_ok.mp h
  by_cases hfolder : folder = ""
  · rw [FilePath.join, if_pos hfolder] at hp
    obtain ⟨-, -, rfl⟩ := FilePath.ofText?_eq_some.mp hp
    refine ⟨[], ?_, .inl hfolder⟩
    rw [FilePath.splitOnP_of_no_slash hslash]
    rfl
  · obtain ⟨steps, tail, hsteps, htail, hpath⟩ := FilePath.ofText?_join hfolder hslash hp
    refine ⟨steps, hsteps, .inr ⟨tail, htail, startOf_eq_ok.mpr ⟨?_, _, hpath, rfl⟩⟩⟩
    have hle : folder.utf8ByteSize ≤ (FilePath.join folder name).utf8ByteSize := by
      rw [FilePath.join, if_neg hfolder]
      split <;> simp only [String.utf8ByteSize_append] <;> omega
    exact Nat.le_trans hle hbytes

theorem locate_eq_ok : t.locate path = .ok a ↔
    ∃ start, startOf path = .ok start ∧ t.follow start.1 start.2 = .ok a := by
  rw [locate]
  cases startOf path <;> simp [bind, Except.bind]

/-- Something in a folder has the name that it is asked for by. -/
theorem names_of_locate_join (hslash : '/' ∉ name.toList)
    (hname : PathStep.ofPart name.toList = .down name)
    (h : t.locate (FilePath.join folder name) = .ok a) : a.names.head? = some name := by
  obtain ⟨start, hstart, hfollow⟩ := locate_eq_ok.mp h
  obtain ⟨steps, hsteps, -⟩ := startOf_join hslash hstart
  rw [hsteps, hname] at hfollow
  obtain ⟨c, -, hlast⟩ := follow_append.mp hfollow
  obtain ⟨-, d, hd, hend⟩ := follow_cons_eq_ok.mp hlast
  rw [follow, Except.ok.injEq] at hend
  rw [stepFrom?] at hd
  split at hd
  · simp at hd
  · rw [← hend, ← Option.some.inj hd]
    rfl

/-- Nothing is made of a folder through which a path leads on. -/
theorem makeFolders_of_locate_join (hslash : '/' ∉ name.toList)
    (h : t.locate (FilePath.join folder name) = .ok a) : t.makeFolders folder = .ok t := by
  obtain ⟨start, hstart, hfollow⟩ := locate_eq_ok.mp h
  obtain ⟨steps, hsteps, hfolder | ⟨tail, htail, hfolder⟩⟩ := startOf_join hslash hstart
  · rw [makeFolders, if_pos hfolder]
  · rw [makeFolders]
    split
    · rfl
    · rw [hsteps] at hfollow
      rw [hfolder]
      exact makeAlong_of_follow hfollow htail

end FileTree

end Routespec
