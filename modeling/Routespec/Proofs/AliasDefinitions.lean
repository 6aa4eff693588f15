import Mathlib.Data.Set.Card
import Routespec.Proofs.AliasExpansion
import Routespec.Proofs.CommentPartition
import Routespec.Proofs.DirectivePlacement

/-!
# Which definition of an alias stands

A text defines an alias if it is a name, an equals sign and quoted text, with white space around
both. After any run of definitions each name stands for what its last accepted one says, and the
names are counted once; what is refused leaves no trace. So two definitions of different names may
change places in the comment of an interface.
-/

namespace Routespec

/-- The text is `core`, perhaps with white space around it. -/
def Text.IsPadded (t core : Text) : Prop :=
  ∃ lead trail, lead.isBlankText = true ∧ trail.isBlankText = true ∧ t = lead ++ core ++ trail

theorem Text.isPadded_iff {t core : Text} (hcore : core.trim = core) :
    t.IsPadded core ↔ t.trim = core := by
  constructor
  · rintro ⟨lead, trail, hlead, htrail, rfl⟩
    rw [trim_append_of_blank htrail, trim_of_blank_append hlead, hcore]
  · intro h
    obtain ⟨lead, trail, hlead, htrail, ht⟩ := exists_eq_append_trim t
    exact ⟨lead, trail, hlead, htrail, h ▸ ht⟩

theorem Text.trim_of_isIdentifier {t : Text} (h : t.isIdentifier = true) : t.trim = t := by
  obtain ⟨hne, hsolid⟩ := solid_of_isIdentifier h
  simpa [trimRight] using trim_append_of_solid hsolid hne []

namespace AliasTable

/-- The text of an `alias` directive gives the name a text: split at its first equals sign, it is an
identifier and a text in alias quotes, which is taken as it is. -/
structure Defines (args name text : String) : Prop where
  identifier : isIdentifier name = true
  unquoted : aliasQuote ∉ text.toList
  written : ∃ left right : Text, args.toList = left ++ '=' :: right ∧ '=' ∉ left ∧
    left.IsPadded name.toList ∧ right.IsPadded (aliasQuote :: (text.toList ++ [aliasQuote]))

section Grammar

variable {args name text : String}

theorem trim_quoted (t : Text) :
    Text.trim (aliasQuote :: (t ++ [aliasQuote])) = aliasQuote :: (t ++ [aliasQuote]) := by
  have hleft : Text.trimLeft (aliasQuote :: (t ++ [aliasQuote])) =
      aliasQuote :: (t ++ [aliasQuote]) := List.dropWhile_cons_of_neg (by decide)
  rw [Text.trim, hleft, ← List.cons_append,
    Text.trimRight_append_cons_of_solid _ (by decide : isBlank aliasQuote = false)]
  rfl

/-- A text is taken apart exactly as it is written. -/
theorem aliasDefinition?_eq_some :
    aliasDefinition? args.toList = some (name.toList, text.toList) ↔ Defines args name text := by
  unfold aliasDefinition?
  simp only [Option.bind_eq_bind, Option.bind_eq_some_iff, Option.guard_eq_some', Prod.exists,
    Text.dropStart?_eq_some, Text.dropEnd?_eq_some, Option.pure_def, Option.some.injEq,
    Prod.mk.injEq]
  constructor
  · rintro ⟨left, right, hcut, _, hname, _, hvalue, _, rfl, _, hunquoted, hleft, rfl⟩
    obtain ⟨_, hbefore, hequals, hargs⟩ := Text.cutAt?_eq_some.mp hcut
    obtain rfl := of_decide_eq_true hequals
    rw [hleft] at hname
    refine ⟨hname, hunquoted, left, right, hargs, fun h => by simpa using hbefore _ h, ?_, ?_⟩
    · exact (Text.isPadded_iff (Text.trim_of_isIdentifier hname)).mpr hleft
    · exact (Text.isPadded_iff (trim_quoted _)).mpr hvalue
  · rintro ⟨hname, hunquoted, left, right, hargs, hbefore, hleft, hright⟩
    have hcut : Text.cutAt? (· = '=') args.toList = some (left, right) := by
      rw [hargs]
      exact Text.cutAt?_append_cons (fun c hc => by simpa using ne_of_mem_of_not_mem hc hbefore)
        (by simp) _
    rw [Text.isPadded_iff (Text.trim_of_isIdentifier hname)] at hleft
    rw [Text.isPadded_iff (trim_quoted _)] at hright
    exact ⟨left, right, hcut, (), hleft ▸ hname, _, hright, _, rfl, (), hunquoted, hleft, rfl⟩

theorem Defines.unique {name' text' : String} (h : Defines args name text)
    (h' : Defines args name' text') : name = name' ∧ text = text' := by
  rw [← aliasDefinition?_eq_some] at h h'
  obtain ⟨hname, htext⟩ := Prod.mk.inj (Option.some.inj (h.symm.trans h'))
  exact ⟨String.toList_inj.mp hname, String.toList_inj.mp htext⟩

theorem define_eq_ok {table table' : AliasTable} : table.define args = .ok table' ↔
    ∃ name text, Defines args name text ∧ table' = table.insert name text := by
  simp only [← aliasDefinition?_eq_some]
  unfold define
  cases hparts : aliasDefinition? args.toList with
  | none => simp
  | some parts =>
    obtain ⟨name, text⟩ := parts
    constructor
    · intro h
      exact ⟨String.ofList name, String.ofList text, by simp, (Except.ok.inj h).symm⟩
    · rintro ⟨name, text, h, rfl⟩
      obtain ⟨rfl, rfl⟩ := Prod.mk.inj (Option.some.inj h)
      simp

theorem define_eq_error {table : AliasTable} {e : Fault} : table.define args = .error e ↔
    (¬ ∃ name text, Defines args name text) ∧ e = (Cause.invalidAlias args).fault := by
  cases hdefine : table.define args with
  | ok table' =>
    obtain ⟨name, text, h, -⟩ := define_eq_ok.mp hdefine
    exact iff_of_false (by simp) fun hnone => hnone.1 ⟨name, text, h⟩
  | error e' =>
    have hnone : ¬ ∃ name text, Defines args name text := by
      rintro ⟨name, text, h⟩
      have hok : table.define args = .ok (table.insert name text) :=
        define_eq_ok.mpr ⟨name, text, h, rfl⟩
      rw [hdefine] at hok
      cases hok
    have hfault : e' = (Cause.invalidAlias args).fault := by
      unfold define at hdefine
      split at hdefine
      · cases hdefine
      · exact (Except.error.inj hdefine).symm
    rw [hfault, Except.error.injEq, eq_comm]
    exact (and_iff_right hnone).symm

end Grammar

section Runs

variable {args name text : String} {table : AliasTable} {steps : List String}

/-- The names of a table, in the order in which they were first defined. -/
def names (table : AliasTable) : List String := table.entries.map Prod.fst

/-- The table once a definition was tried: the same table if that is refused. -/
def attempt (table : AliasTable) (args : String) : AliasTable :=
  match table.define args with
  | .ok table' => table'
  | .error _ => table

/-- The table after a run of definitions. -/
def run (steps : List String) : AliasTable := steps.foldl attempt empty

theorem attempt_of_defines (h : Defines args name text) (table : AliasTable) :
    table.attempt args = table.insert name text := by
  rw [attempt, define_eq_ok.mpr ⟨name, text, h, rfl⟩]

theorem attempt_of_refused (h : ¬ ∃ name text, Defines args name text) (table : AliasTable) :
    table.attempt args = table := by
  rw [attempt, define_eq_error.mpr ⟨h, rfl⟩]

/-- A name stands for what was tried last, if that defines it, and else for what it did before. -/
theorem get?_attempt : (table.attempt args).get? name = some text ↔ Defines args name text ∨
    (∀ other, ¬ Defines args name other) ∧ table.get? name = some text := by
  by_cases h : ∃ name text, Defines args name text
  · obtain ⟨defined, meaning, h⟩ := h
    rw [attempt_of_defines h, get?_insert]
    by_cases hname : name = defined
    · subst hname
      rw [if_pos rfl, Option.some.injEq]
      constructor
      · rintro rfl
        exact .inl h
      · rintro (h' | ⟨hnone, -⟩)
        · exact (h.unique h').2
        · exact absurd h (hnone meaning)
    · have hother (other : String) : ¬ Defines args name other := fun h' => hname (h'.unique h).1
      rw [if_neg hname]
      exact ⟨fun hget => .inr ⟨hother, hget⟩, fun hor => (hor.resolve_left (hother text)).2⟩
  · have hother (other : String) : ¬ Defines args name other := fun h' => h ⟨name, other, h'⟩
    rw [attempt_of_refused h]
    exact ⟨fun hget => .inr ⟨hother, hget⟩, fun hor => (hor.resolve_left (hother text)).2⟩

/-- The last accepted definition of the name in the run gives it the text. -/
def LastDefines (steps : List String) (name text : String) : Prop :=
  ∃ before step after, steps = before ++ step :: after ∧ Defines step name text ∧
    ∀ later ∈ after, ∀ other, ¬ Defines later name other

theorem lastDefines_concat : LastDefines (steps ++ [args]) name text ↔ Defines args name text ∨
    (∀ other, ¬ Defines args name other) ∧ LastDefines steps name text := by
  constructor
  · rintro ⟨before, step, after, hsteps, hstep, hafter⟩
    rcases List.eq_nil_or_concat' after with rfl | ⟨after, last, rfl⟩
    · obtain ⟨-, hlast⟩ := List.append_inj' hsteps rfl
      obtain rfl := List.singleton_inj.mp hlast
      exact .inl hstep
    · have hsplit : steps ++ [args] = (before ++ step :: after) ++ [last] := by simpa using hsteps
      obtain ⟨rfl, hlast⟩ := List.append_inj' hsplit rfl
      obtain rfl := List.singleton_inj.mp hlast
      rw [List.forall_mem_append] at hafter
      exact .inr ⟨by simpa using hafter.2, before, step, after, rfl, hstep, hafter.1⟩
  · rintro (h | ⟨hnone, before, step, after, rfl, hstep, hafter⟩)
    · exact ⟨steps, args, [], rfl, h, by simp⟩
    · refine ⟨before, step, after ++ [args], by simp, hstep, ?_⟩
      exact List.forall_mem_append.mpr ⟨hafter, by simpa using hnone⟩

theorem run_concat (steps : List String) (args : String) :
    run (steps ++ [args]) = (run steps).attempt args := by
  rw [run, List.foldl_concat]
  rfl

/-- A name stands for what its last accepted definition says. -/
theorem get?_run : (run steps).get? name = some text ↔ LastDefines steps name text := by
  induction steps using List.reverseRecOn with
  | nil => simp [run, LastDefines]
  | append_singleton steps args ih => rw [run_concat, get?_attempt, lastDefines_concat, ih]

/-- Some definition of the name is the last one, if there is one. -/
theorem exists_lastDefines : (∃ text, LastDefines steps name text) ↔
    ∃ step ∈ steps, ∃ text, Defines step name text := by
  constructor
  · rintro ⟨text, before, step, after, rfl, hstep, -⟩
    exact ⟨step, by simp, text, hstep⟩
  · intro h
    induction steps using List.reverseRecOn with
    | nil => simp at h
    | append_singleton steps args ih =>
      by_cases hargs : ∃ text, Defines args name text
      · obtain ⟨text, hargs⟩ := hargs
        exact ⟨text, lastDefines_concat.mpr (.inl hargs)⟩
      · obtain ⟨step, hstep, hdefines⟩ := h
        have hearlier : step ∈ steps := by
          refine (List.mem_append.mp hstep).resolve_right fun hlast => hargs ?_
          obtain rfl := List.mem_singleton.mp hlast
          exact hdefines
        obtain ⟨text, hlast⟩ := ih ⟨step, hearlier, hdefines⟩
        exact ⟨text, lastDefines_concat.mpr (.inr ⟨not_exists.mp hargs, hlast⟩)⟩

theorem mem_names : name ∈ table.names ↔ ∃ text, table.get? name = some text := by
  rw [← Option.isSome_iff_exists, get?, List.lookup_isSome_iff, names, List.mem_map]
  exact exists_congr fun entry => and_congr_right fun _ => by rw [beq_iff_eq, eq_comm]

/-- Each name is once in the table. -/
theorem nodup_names_insert (h : table.names.Nodup) (name text : String) :
    (table.insert name text).names.Nodup := by
  have hput : (table.insert name text).names =
      if name ∈ table.names then table.names else table.names ++ [name] :=
    KeyedList.map_fst_put name text table.entries
  rw [hput]
  split
  · exact h
  · next hnew =>
    rw [← List.concat_eq_append]
    exact h.concat hnew

theorem nodup_names_attempt (h : table.names.Nodup) (args : String) :
    (table.attempt args).names.Nodup := by
  by_cases hargs : ∃ name text, Defines args name text
  · obtain ⟨name, text, hargs⟩ := hargs
    rw [attempt_of_defines hargs]
    exact nodup_names_insert h name text
  · rwa [attempt_of_refused hargs]

theorem nodup_names_run (steps : List String) : (run steps).names.Nodup := by
  induction steps using List.reverseRecOn with
  | nil => exact List.nodup_nil
  | append_singleton steps args ih =>
    rw [run_concat]
    exact nodup_names_attempt ih args

/-- A table in which each name is once has the size of what it defines. -/
theorem size_eq_ncard (h : table.names.Nodup) :
    table.size = {name | ∃ text, table.get? name = some text}.ncard := by
  have hnames : {name | ∃ text, table.get? name = some text} = table.names.toFinset := by
    ext name
    simp [mem_names]
  rw [hnames, Set.ncard_coe_finset, List.toFinset_card_of_nodup h, names, List.length_map, size]

end Runs

section Lookups

variable {table table' : AliasTable}

/-- Texts are expanded by what the names in them stand for, however the table was made. -/
theorem expand_congr (h : table.get? = table'.get?) (s : String) :
    table.expand s = table'.expand s := by
  have hresolve : table.resolve = table'.resolve := by
    funext piece
    cases piece with
    | plain c => rfl
    | reference name => rw [resolve, resolve, h]
  rw [expand, expand, expandText, expandText, hresolve]

theorem get?_insert_comm {name name' : String} (hne : name ≠ name') (text text' : String) :
    ((table.insert name text).insert name' text').get? =
      ((table.insert name' text').insert name text).get? := by
  funext other
  simp only [get?_insert]
  split_ifs with hname' hname
  · exact absurd (hname.symm.trans hname') hne
  all_goals rfl

theorem get?_insert_congr (h : table.get? = table'.get?) (name text : String) :
    (table.insert name text).get? = (table'.insert name text).get? := by
  funext other
  rw [get?_insert, get?_insert, h]

end Lookups

end AliasTable

/-- A method resolves by what names stand for. -/
theorem Method.resolve_congr {aliases aliases' : AliasTable} (h : aliases.get? = aliases'.get?)
    (m : Method) (options : ResolveOptions) :
    m.resolve aliases options = m.resolve aliases' options := by
  have hexpand : m.expandDirectives aliases = m.expandDirectives aliases' := by
    funext block
    unfold expandDirectives
    simp only [AliasTable.expand_congr h]
  unfold resolve
  rw [hexpand]

/-- The line defines an alias. -/
def Directive.DefinesOn (line : Text) (name text : String) : Prop :=
  ∃ d : Directive, d.IsOn line ∧ d.keyword = .alias ∧ AliasTable.Defines d.args name text

namespace Comment

/-- Two lines that define aliases of different names change places. What stands between them, if
anything does, is not about aliases. -/
inductive SwapsDefinitions : List Text → List Text → Prop
  | swap (before between after : List Text) {first second : Text} {name text name' text' : String}
    (hfirst : Directive.DefinesOn first name text)
    (hsecond : Directive.DefinesOn second name' text') (hne : name ≠ name')
    (hbetween : ∀ line ∈ between, ∀ d : Directive, d.IsOn line → d.keyword ≠ .alias) :
    SwapsDefinitions (before ++ first :: (between ++ second :: after))
      (before ++ second :: (between ++ first :: after))

/-- Lines that are directives may stand anywhere in the free text. -/
theorem SwapsDefinitions.description_eq {joined joined' : List Text}
    (h : SwapsDefinitions joined joined') : description joined = description joined' := by
  obtain ⟨before, between, after, ⟨d, hon, -, -⟩, ⟨d', hon', -, -⟩, -, -⟩ := h
  have hmarked {d : Directive} {line : Text} (h : d.IsOn line) : Directive.marked? line ≠ none :=
    (@Directive.marked_of_ofLine "" line d (Directive.ofLine_eq_some.mpr h)).1
  have hwithout {first second : Text} (hfirst : Directive.marked? first ≠ none)
      (hsecond : Directive.marked? second ≠ none) :
      description (before ++ first :: (between ++ second :: after)) =
        description (before ++ between ++ after) := by
    rw [description_insert _ _ hfirst, ← List.append_assoc, description_insert _ _ hsecond]
  rw [hwithout (hmarked hon) (hmarked hon'), hwithout (hmarked hon') (hmarked hon)]

end Comment

namespace Interface

namespace Preamble

variable {owner : String} {p q : Preamble} {d d' : Directive} {name text name' text' : String}

/-- What has been declared, with one more alias. -/
def withAlias (p : Preamble) (name text : String) : Preamble :=
  { p with aliases := p.aliases.insert name text }

/-- What can be told of declarations: the properties of the document, and what names stand for. -/
def view (p : Preamble) : SpecMeta × (String → Option String) := (p.about, p.aliases.get?)

theorem apply_of_defines (hkeyword : d.keyword = .alias)
    (h : AliasTable.Defines d.args name text) (p : Preamble) :
    apply owner p d = .ok (p.withAlias name text) := by
  rw [apply, hkeyword]
  dsimp only
  rw [AliasTable.define_eq_ok.mpr ⟨name, text, h, rfl⟩]
  rfl

theorem apply_of_refused (hkeyword : d.keyword = .alias)
    (h : ¬ ∃ name text, AliasTable.Defines d.args name text) (p : Preamble) :
    apply owner p d = .error ⟨owner, d.raw, (Cause.invalidAlias d.args).fault⟩ := by
  rw [apply, hkeyword]
  dsimp only
  rw [AliasTable.define_eq_error.mpr ⟨h, rfl⟩]
  rfl

/-- What is not about aliases is about the properties of the document only. -/
theorem exists_apply_eq (owner : String) (hkeyword : d.keyword ≠ .alias) :
    ∃ change : Diagnosed (SpecMeta → SpecMeta), ∀ p : Preamble,
      apply owner p d = change.map fun f => { p with about := f p.about } := by
  by_cases hoas : d.keyword = .oas
  · refine ⟨(Checked.at owner d.raw (DocumentRule.read d.args)).map fun rule about =>
      (describe ⟨.empty, about⟩ rule).about, fun p => ?_⟩
    rw [apply, hoas]
    dsimp only
    cases DocumentRule.read d.args <;> rfl
  · by_cases hmethod : d.keyword.isMethodOnly = true
    · exact ⟨.error ⟨owner, d.raw, (Cause.methodOnlyDirective d.keyword.word).fault⟩,
        apply_of_isMethodOnly hmethod⟩
    · refine ⟨.ok id, fun p => ?_⟩
      unfold apply
      cases hd : d.keyword <;> first | rfl | simp_all [Keyword.isMethodOnly]

/-- What is not about aliases is declared alike before and after an alias. -/
theorem apply_withAlias (hkeyword : d.keyword ≠ .alias) (p : Preamble) :
    apply owner (p.withAlias name text) d = (apply owner p d).map (·.withAlias name text) := by
  obtain ⟨change, hchange⟩ := exists_apply_eq owner hkeyword
  rw [hchange, hchange]
  cases change <;> rfl

theorem view_withAlias (h : p.view = q.view) (name text : String) :
    (p.withAlias name text).view = (q.withAlias name text).view := by
  obtain ⟨habout, hget⟩ := Prod.mk.inj h
  exact Prod.ext habout (AliasTable.get?_insert_congr hget name text)

/-- Declarations that look alike do so after one more directive. -/
theorem apply_map_view (h : p.view = q.view) (d : Directive) :
    (apply owner p d).map view = (apply owner q d).map view := by
  by_cases hkeyword : d.keyword = .alias
  · by_cases hdefines : ∃ name text, AliasTable.Defines d.args name text
    · obtain ⟨name, text, hdefines⟩ := hdefines
      rw [apply_of_defines hkeyword hdefines, apply_of_defines hkeyword hdefines]
      exact congrArg Except.ok (view_withAlias h name text)
    · rw [apply_of_refused hkeyword hdefines, apply_of_refused hkeyword hdefines]
  · obtain ⟨change, hchange⟩ := exists_apply_eq owner hkeyword
    obtain ⟨habout, hget⟩ := Prod.mk.inj h
    rw [hchange, hchange]
    cases change with
    | error e => rfl
    | ok f => exact congrArg Except.ok (Prod.ext (congrArg f habout) hget)

/-- Two definitions of different names may change places. -/
theorem foldlM_swap {before between after : List Directive} (hd : d.keyword = .alias)
    (hd' : d'.keyword = .alias) (hdefines : AliasTable.Defines d.args name text)
    (hdefines' : AliasTable.Defines d'.args name' text') (hne : name ≠ name')
    (hbetween : ∀ e ∈ between, e.keyword ≠ .alias) (p : Preamble) :
    ((before ++ d :: (between ++ d' :: after)).foldlM (apply owner) p).map view =
      ((before ++ d' :: (between ++ d :: after)).foldlM (apply owner) p).map view := by
  have hcomm (name text : String) (p : Preamble) :
      between.foldlM (apply owner) (p.withAlias name text) =
        (between.foldlM (apply owner) p).map (·.withAlias name text) :=
    foldlM_map_comm (fun p e he => apply_withAlias (hbetween e he) p) p
  rw [List.foldlM_append, List.foldlM_append]
  cases before.foldlM (apply owner) p with
  | error e => rfl
  | ok p =>
    -- an alias that is defined before what stands between might as well be defined behind it
    have hfirst {d : Directive} {name text : String} (hd : d.keyword = .alias)
        (hdefines : AliasTable.Defines d.args name text) (rest : List Directive) :
        (d :: (between ++ rest)).foldlM (apply owner) p =
          (between.foldlM (apply owner) p).map (·.withAlias name text) >>=
            rest.foldlM (apply owner) := by
      rw [List.foldlM_cons, apply_of_defines hd hdefines, ← hcomm, ← List.foldlM_append]
      rfl
    change ((d :: (between ++ d' :: after)).foldlM (apply owner) p).map view =
      ((d' :: (between ++ d :: after)).foldlM (apply owner) p).map view
    rw [hfirst hd hdefines, hfirst hd' hdefines']
    cases between.foldlM (apply owner) p with
    | error e => rfl
    | ok p =>
      change ((d' :: after).foldlM (apply owner) (p.withAlias name text)).map view =
        ((d :: after).foldlM (apply owner) (p.withAlias name' text')).map view
      rw [List.foldlM_cons, List.foldlM_cons, apply_of_defines hd' hdefines',
        apply_of_defines hd hdefines]
      refine foldlM_map_congr (fun _ _ e h => apply_map_view h e) after ?_
      exact Prod.ext rfl (AliasTable.get?_insert_comm hne text text')

end Preamble

/-- Two definitions of aliases of different names change places in the comment of the interface. -/
structure SwapsDefinitions (i i' : Interface) : Prop where
  name : i.name = i'.name
  doc : Comment.SwapsDefinitions (Comment.joinLines (i.doc.map (·.toList)))
    (Comment.joinLines (i'.doc.map (·.toList)))
  methods : i.methods = i'.methods

variable {i i' : Interface}

/-- What is declared, joined line by joined line. -/
theorem preamble_of_joined {joined : List Text}
    (hjoined : Comment.joinLines (i.doc.map (·.toList)) = joined) :
    i.preamble = joined.mapM (Directive.ofLine i.name) >>= fun found =>
      (found.filterMap id).foldlM (Preamble.apply i.name)
        (i.opening (String.ofList (Comment.description joined))) := by
  unfold preamble CommentBlock.read
  dsimp only
  rw [hjoined]
  cases joined.mapM (Directive.ofLine i.name) <;> rfl

theorem SwapsDefinitions.preamble_map_view (h : i.SwapsDefinitions i') :
    i.preamble.map Preamble.view = i'.preamble.map Preamble.view := by
  obtain ⟨hname, hdoc, -⟩ := h
  generalize hjoined : Comment.joinLines (i.doc.map (·.toList)) = joined at hdoc
  generalize hjoined' : Comment.joinLines (i'.doc.map (·.toList)) = joined' at hdoc
  have hdescription := hdoc.description_eq
  obtain ⟨before, between, after, ⟨d, hon, hd, hdefines⟩, ⟨d', hon', hd', hdefines'⟩, hne,
    hbetween⟩ := hdoc
  have hline {d : Directive} {line : Text} (h : d.IsOn line) :
      Directive.ofLine i'.name line = .ok (some d) := Directive.ofLine_eq_some.mpr h
  have hopening : i.opening = i'.opening := by
    unfold opening
    rw [hname]
  rw [preamble_of_joined hjoined, preamble_of_joined hjoined', hopening, hname, hdescription]
  simp only [List.mapM_append, List.mapM_cons, hline hon, hline hon']
  -- both comments are refused for the same line, if for any: the two that move are read
  cases before.mapM (Directive.ofLine i'.name) with
  | error e => rfl
  | ok found₁ =>
    cases hfound₂ : between.mapM (Directive.ofLine i'.name) with
    | error e => rfl
    | ok found₂ =>
      cases after.mapM (Directive.ofLine i'.name) with
      | error e => rfl
      | ok found₃ =>
        have hkeyword : ∀ e ∈ found₂.filterMap id, e.keyword ≠ .alias := by
          intro e he
          obtain ⟨d?, hmem, rfl⟩ := List.mem_filterMap.mp he
          obtain ⟨line, hline, hread⟩ := forall₂_mem_right (mapM_eq_ok.mp hfound₂) hmem
          exact hbetween line hline e (Directive.ofLine_eq_some.mp hread)
        change (((found₁ ++ some d :: (found₂ ++ some d' :: found₃)).filterMap id).foldlM
            (Preamble.apply i'.name) _).map Preamble.view =
          (((found₁ ++ some d' :: (found₂ ++ some d :: found₃)).filterMap id).foldlM
            (Preamble.apply i'.name) _).map Preamble.view
        simp only [List.filterMap_append, List.filterMap_cons_some (id_eq (some d)),
          List.filterMap_cons_some (id_eq (some d'))]
        exact Preamble.foldlM_swap hd hd' hdefines hdefines' hne hkeyword _

/-- An interface resolves to the same with two definitions of different names swapped. -/
theorem SwapsDefinitions.resolve_eq (h : i.SwapsDefinitions i') (options : ResolveOptions) :
    i.resolve options = i'.resolve options := by
  unfold resolve
  rw [h.methods]
  refine bind_congr_of_map h.preamble_map_view fun p q hview => ?_
  obtain ⟨habout, hget⟩ := Prod.mk.inj hview
  have hresolve (m : Method) : m.resolve p.aliases options = m.resolve q.aliases options :=
    m.resolve_congr hget options
  simp only [hresolve, habout]

end Interface

/-- A definition is accepted exactly if it is a name, an equals sign and quoted text. What is
refused leaves the table as it was. After a run of definitions each name stands for the text of its
last accepted one, if there is any, and the table has as many aliases as names were accepted. An
interface resolves to the same with two definitions of different names swapped. -/
theorem aliasDefinitions_outcome :
    (∀ (table : AliasTable) (args : String),
      (∀ table', table.define args = .ok table' ↔
        ∃ name text, AliasTable.Defines args name text ∧ table' = table.insert name text) ∧
      (∀ e, table.define args = .error e ↔ (¬ ∃ name text, AliasTable.Defines args name text) ∧
        e = (Cause.invalidAlias args).fault) ∧
      ((¬ ∃ name text, AliasTable.Defines args name text) → table.attempt args = table)) ∧
    (∀ (steps : List String) (name : String),
      (∀ text, (AliasTable.run steps).get? name = some text ↔
        AliasTable.LastDefines steps name text) ∧
      ((AliasTable.run steps).get? name = none ↔
        ¬ ∃ step ∈ steps, ∃ text, AliasTable.Defines step name text)) ∧
    (∀ steps, (AliasTable.run steps).size =
      {name | ∃ step ∈ steps, ∃ text, AliasTable.Defines step name text}.ncard) ∧
    ∀ (i i' : Interface), i.SwapsDefinitions i' → ∀ options,
      i.resolve options = i'.resolve options := by
  have hdefined (steps : List String) (name : String) :
      (∃ text, (AliasTable.run steps).get? name = some text) ↔
        ∃ step ∈ steps, ∃ text, AliasTable.Defines step name text := by
    simp only [AliasTable.get?_run, AliasTable.exists_lastDefines]
  refine ⟨fun table args => ⟨fun table' => AliasTable.define_eq_ok,
      fun e => AliasTable.define_eq_error, fun h => AliasTable.attempt_of_refused h table⟩,
    fun steps name => ⟨fun text => AliasTable.get?_run, ?_⟩, fun steps => ?_,
    fun i i' h => h.resolve_eq⟩
  · rw [← hdefined, not_exists, Option.eq_none_iff_forall_ne_some]
  · rw [AliasTable.size_eq_ncard (AliasTable.nodup_names_run steps)]
    simp only [hdefined]

/-- A method that is served where the aliases of its interface say. -/
def storeNote : Method where
  name := "StoreNote"
  args := [⟨"text", "string", .scalar⟩]
  returns := []
  doc := ["//kun:op $route", "//kun:param text $place"]

/-- An interface that defines an alias twice. -/
def noteStore : Interface where
  name := "NoteStore"
  methods := [storeNote]
  doc := ["//kun:alias place=`in=query`", "//kun:alias route = `PUT /notes`",
    "//kun:oas version=1.1", "//kun:alias place=`in=header name=X-Note`"]

/-- The same interface with its last two definitions swapped. -/
def swappedNoteStore : Interface :=
  { noteStore with
    doc := ["//kun:alias place=`in=query`", "//kun:alias place=`in=header name=X-Note`",
      "//kun:oas version=1.1", "//kun:alias route = `PUT /notes`"] }

theorem aliasDefinitions_outcome_of_noteStore :
    let steps := ["a=`x`", "b=`$a`", "a= `y=z`", "a=`u", "`"]
    AliasTable.LastDefines steps "a" "y=z" ∧
      {name | ∃ step ∈ steps, ∃ text, AliasTable.Defines step name text}.ncard = 2 ∧
      noteStore.SwapsDefinitions swappedNoteStore ∧
      noteStore.resolve {} = swappedNoteStore.resolve {} ∧
      ((swappedNoteStore.resolve {}).toOption.map fun r => r.spec.operations.map fun o =>
          (o.pattern, o.request.bindings.map fun b => b.params.map (·.name))) =
        some [("/notes", [["X-Note"]])] := by
  intro steps
  have hlast : AliasTable.LastDefines steps "a" "y=z" :=
    ((aliasDefinitions_outcome.2.1 steps "a").1 "y=z").mp (by decide +kernel)
  have hcount : {name | ∃ step ∈ steps, ∃ text, AliasTable.Defines step name text}.ncard = 2 :=
    (aliasDefinitions_outcome.2.2.1 steps).symm.trans (by decide +kernel)
  have hroute : Directive.DefinesOn "//kun:alias route = `PUT /notes`".toList "route"
      "PUT /notes" :=
    ⟨⟨.alias, "route = `PUT /notes`", "//kun:alias route = `PUT /notes`"⟩,
      (@Directive.ofLine_eq_some "" _ _).mp (by decide +kernel), rfl,
      AliasTable.aliasDefinition?_eq_some.mp (by decide +kernel)⟩
  have hplace : Directive.DefinesOn "//kun:alias place=`in=header name=X-Note`".toList "place"
      "in=header name=X-Note" :=
    ⟨⟨.alias, "place=`in=header name=X-Note`", "//kun:alias place=`in=header name=X-Note`"⟩,
      (@Directive.ofLine_eq_some "" _ _).mp (by decide +kernel), rfl,
      AliasTable.aliasDefinition?_eq_some.mp (by decide +kernel)⟩
  have hversion : ∀ line ∈ ["//kun:oas version=1.1".toList], ∀ d : Directive, d.IsOn line →
      d.keyword ≠ .alias := by
    intro line hline d hd
    obtain rfl := List.mem_singleton.mp hline
    have hread : Directive.ofLine "" "//kun:oas version=1.1".toList =
        .ok (some ⟨.oas, "version=1.1", "//kun:oas version=1.1"⟩) := by decide +kernel
    rw [Directive.ofLine_eq_some.mpr hd] at hread
    obtain rfl := Option.some.inj (Except.ok.inj hread)
    exact Keyword.noConfusion
  have hswap : noteStore.SwapsDefinitions swappedNoteStore := by
    refine ⟨rfl, ?_, rfl⟩
    have hdoc := Comment.SwapsDefinitions.swap ["//kun:alias place=`in=query`".toList] _ [] hroute
      hplace (by decide) hversion
    have hjoined : Comment.joinLines (noteStore.doc.map (·.toList)) =
          noteStore.doc.map (·.toList) ∧
        Comment.joinLines (swappedNoteStore.doc.map (·.toList)) =
          swappedNoteStore.doc.map (·.toList) := by decide +kernel
    rwa [hjoined.1, hjoined.2]
  exact ⟨hlast, hcount, hswap, aliasDefinitions_outcome.2.2.2 _ _ hswap {}, by decide +kernel⟩

end Routespec
