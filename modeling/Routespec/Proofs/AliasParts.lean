import Routespec.Alias
import Routespec.Proofs.OptionGrammar

/-!
# How aliases are expanded

Every text falls into parts in one way only: stretches without dollar signs, references, whose names
are as long as they can be, and lone dollar signs. A text is expanded if every name in it is
defined, to the parts with each reference replaced by the text of its alias, which is not looked at
again; otherwise the first name that is not defined is reported. What is put together of two texts
is expanded to what these are, unless a name could go on across the border.
-/

namespace Routespec

/-- A part of a text in which aliases may be referred to. -/
inductive AliasPart
  /-- Text without dollar signs. -/
  | stretch (t : Text)
  /-- A dollar sign and a name. -/
  | reference (name : Text)
  /-- A dollar sign before anything but a name. -/
  | dollar
  deriving DecidableEq

namespace AliasPart

/-- The characters of a part. -/
def source : AliasPart → Text
  | .stretch t => t
  | .reference name => '$' :: name
  | .dollar => ['$']

/-- The part is well formed before `rest`, and reaches as far as it can. -/
def Leads : AliasPart → Text → Prop
  | .stretch t, rest => t ≠ [] ∧ '$' ∉ t ∧ ∀ c ∈ rest.head?, c = '$'
  | .reference name, rest => name.isIdentifier = true ∧
    ∀ longer, longer <+: name ++ rest → Text.isIdentifier longer = true →
      longer.length ≤ name.length
  | .dollar, rest => ∀ c ∈ rest.head?, isIdentifierStart c = false

/-- The text falls into the parts. -/
inductive Splits : Text → List AliasPart → Prop
  | nil : Splits [] []
  | cons {first : AliasPart} {rest : Text} {later : List AliasPart} (hfirst : first.Leads rest)
    (hrest : Splits rest later) : Splits (first.source ++ rest) (first :: later)

/-- What the part stands for: a reference, for the text of its alias. -/
def meaning? (table : AliasTable) : AliasPart → Option Text
  | .stretch t => some t
  | .reference name => (table.get? (String.ofList name)).map (·.toList)
  | .dollar => some ['$']

/-- The pieces of a part, character by character but for a reference. -/
def pieces : AliasPart → List AliasPiece
  | .stretch t => t.map .plain
  | .reference name => [.reference name]
  | .dollar => [.plain '$']

section Splitting

variable {name rest t : Text} {part part' : AliasPart} {parts : List AliasPart}

/-- A name reaches as far as it can if what follows does not go on with it. -/
theorem longest_iff (hname : name.isIdentifier = true) :
    (∀ longer, longer <+: name ++ rest → Text.isIdentifier longer = true →
      longer.length ≤ name.length) ↔ ∀ c ∈ rest.head?, isIdentifierPart c = false := by
  constructor
  · intro hlongest c hc
    obtain ⟨rest, rfl⟩ := List.head?_eq_some_iff.mp hc
    by_contra hpart
    have hlonger : Text.isIdentifier (name ++ [c]) = true := by
      cases name with
      | nil => cases hname
      | cons d name => simp_all [Text.isIdentifier]
    have hlength := hlongest (name ++ [c]) ⟨rest, by simp⟩ hlonger
    rw [List.length_append, List.length_singleton] at hlength
    omega
  · intro hends longer hprefix hlonger
    by_contra hlength
    obtain ⟨more, rfl⟩ : name <+: longer :=
      List.prefix_of_prefix_length_le (List.prefix_append name rest) hprefix (by omega)
    obtain ⟨behind, hsplit⟩ := hprefix
    rw [List.append_assoc, List.append_cancel_left_eq] at hsplit
    cases more with
    | nil => simp at hlength
    | cons c more =>
      have hpart := Text.isIdentifierPart_of_isIdentifier hlonger c (by simp)
      rw [hends c (by rw [← hsplit]; rfl)] at hpart
      cases hpart

theorem spanIdentifier_of_not_start (h : ∀ c ∈ rest.head?, isIdentifierStart c = false) :
    rest.spanIdentifier = ([], rest) := by
  cases rest with
  | nil => rfl
  | cons c rest => rw [Text.spanIdentifier, if_neg (by simp [h c rfl])]

/-- The first part of a text, and what follows. -/
def leading? : Text → Option (AliasPart × Text)
  | [] => none
  | c :: t =>
    if c = '$' then
      if (Text.spanIdentifier t).1 = [] then some (.dollar, t)
      else some (.reference (Text.spanIdentifier t).1, (Text.spanIdentifier t).2)
    else some (.stretch ((c :: t).takeWhile (· ≠ '$')), (c :: t).dropWhile (· ≠ '$'))

theorem Leads.leading?_eq (h : part.Leads rest) :
    leading? (part.source ++ rest) = some (part, rest) := by
  cases part with
  | stretch t =>
    obtain ⟨hne, hplain, hends⟩ := h
    have hp : ∀ c ∈ t, decide (c ≠ '$') = true := fun c hc => by
      simpa using ne_of_mem_of_not_mem hc hplain
    have hrest : ∀ c ∈ rest.head?, decide (c ≠ '$') = false := fun c hc => by simp [hends c hc]
    have htake := Text.takeWhile_exact hp hrest
    have hdrop := Text.dropWhile_exact hp hrest
    obtain ⟨c, t, rfl⟩ := List.exists_cons_of_ne_nil hne
    have hc : c ≠ '$' := ne_of_mem_of_not_mem List.mem_cons_self hplain
    rw [source, List.cons_append, leading?, if_neg hc, ← List.cons_append, htake, hdrop]
  | reference name =>
    obtain ⟨hname, hlongest⟩ := h
    have hspan := Text.spanIdentifier_append_of_isIdentifier hname ((longest_iff hname).mp hlongest)
    have hne : name ≠ [] := (Text.solid_of_isIdentifier hname).1
    rw [source, List.cons_append, leading?, if_pos rfl, hspan, if_neg hne]
  | dollar =>
    have hspan := spanIdentifier_of_not_start h
    rw [source, List.singleton_append, leading?, if_pos rfl, hspan, if_pos rfl]

/-- A text starts with a name that reaches as far as it can, or with none. -/
theorem exists_name_or_lone (t : Text) :
    (∃ name rest, t = name ++ rest ∧ Text.isIdentifier name = true ∧
      ∀ c ∈ rest.head?, isIdentifierPart c = false) ∨
    ∀ c ∈ t.head?, isIdentifierStart c = false := by
  cases t with
  | nil => exact .inr (by simp)
  | cons c t =>
    by_cases hc : isIdentifierStart c = true
    · refine .inl ⟨c :: t.takeWhile isIdentifierPart, t.dropWhile isIdentifierPart, ?_, ?_,
        Text.head?_dropWhile _ t⟩
      · rw [List.cons_append, List.takeWhile_append_dropWhile]
      · rw [Text.isIdentifier, hc, Bool.true_and]
        exact List.all_takeWhile
    · exact .inr (by simpa using hc)

/-- A text that is not empty starts with a part. -/
theorem exists_leads (ht : t ≠ []) :
    ∃ (part : AliasPart) (rest : Text), t = part.source ++ rest ∧ part.Leads rest := by
  obtain ⟨c, t, rfl⟩ := List.exists_cons_of_ne_nil ht
  by_cases hc : c = '$'
  · subst hc
    obtain ⟨name, rest, rfl, hname, hends⟩ | hlone := exists_name_or_lone t
    · exact ⟨.reference name, rest, rfl, hname, (longest_iff hname).mpr hends⟩
    · exact ⟨.dollar, t, rfl, hlone⟩
  · refine ⟨.stretch ((c :: t).takeWhile (· ≠ '$')), (c :: t).dropWhile (· ≠ '$'),
      ?_, ?_, fun hmem => ?_, fun d hd => ?_⟩
    · rw [source, List.takeWhile_append_dropWhile]
    · rw [List.takeWhile_cons_of_pos (by simpa using hc)]
      exact List.cons_ne_nil _ _
    · simpa using List.mem_takeWhile_imp hmem
    · simpa using Text.head?_dropWhile _ _ d hd

theorem Leads.source_ne_nil (h : part.Leads rest) : part.source ≠ [] := by
  cases part with
  | stretch t => exact h.1
  | reference name => exact List.cons_ne_nil _ _
  | dollar => exact List.cons_ne_nil _ _

theorem exists_splits (t : Text) : ∃ parts, Splits t parts := by
  induction hlength : t.length using Nat.strong_induction_on generalizing t with
  | _ n ih =>
    by_cases ht : t = []
    · exact ⟨[], ht ▸ .nil⟩
    · obtain ⟨first, rest, rfl, hfirst⟩ := exists_leads ht
      have hpos := List.length_pos_iff.mpr hfirst.source_ne_nil
      rw [List.length_append] at hlength
      obtain ⟨later, hlater⟩ := ih rest.length (by omega) rest rfl
      exact ⟨first :: later, .cons hfirst hlater⟩

/-- A text falls into parts in one way only: what its first part is, the text says. -/
theorem Splits.unique {parts' : List AliasPart} (h : Splits t parts) (h' : Splits t parts') :
    parts = parts' := by
  induction h generalizing parts' with
  | nil =>
    generalize hnil : ([] : Text) = u at h'
    cases h' with
    | nil => rfl
    | cons hfirst _ => exact absurd (List.append_eq_nil_iff.mp hnil.symm).1 hfirst.source_ne_nil
  | @cons first rest later hfirst _ ih =>
    generalize hsame : first.source ++ rest = u at h'
    cases h' with
    | nil => exact absurd (List.append_eq_nil_iff.mp hsame).1 hfirst.source_ne_nil
    | @cons first' rest' later' hfirst' hrest' =>
      have hleading := hfirst'.leading?_eq
      rw [← hsame, hfirst.leading?_eq] at hleading
      obtain ⟨rfl, rfl⟩ := Prod.mk.inj (Option.some.inj hleading)
      rw [ih hrest']

end Splitting

section Scanning

variable {name rest t u : Text} {parts : List AliasPart}

theorem scan_stretch (ht : '$' ∉ t) (rest : Text) :
    AliasPiece.scan (t ++ rest) = (stretch t).pieces ++ AliasPiece.scan rest := by
  induction t with
  | nil => rfl
  | cons c t ih =>
    obtain ⟨hc, ht⟩ := not_or.mp (List.mem_cons.not.mp ht)
    rw [List.cons_append, AliasPiece.scan, if_neg fun h => hc h.1.symm, ih ht]
    rfl

theorem scan_reference (hname : name.isIdentifier = true)
    (hends : ∀ c ∈ rest.head?, isIdentifierPart c = false) :
    AliasPiece.scan ((reference name).source ++ rest) =
      (reference name).pieces ++ AliasPiece.scan rest := by
  have hspan := Text.spanIdentifier_append_of_isIdentifier hname hends
  have hne : name ≠ [] := (Text.solid_of_isIdentifier hname).1
  rw [source, List.cons_append, AliasPiece.scan, hspan, if_pos ⟨rfl, hne⟩]
  rfl

theorem scan_dollar (hlone : ∀ c ∈ rest.head?, isIdentifierStart c = false) :
    AliasPiece.scan (dollar.source ++ rest) = dollar.pieces ++ AliasPiece.scan rest := by
  have hspan := spanIdentifier_of_not_start hlone
  rw [source, List.singleton_append, AliasPiece.scan, hspan, if_neg fun h => h.2 rfl]
  rfl

/-- No name or dollar sign at the end of the parts goes on in the text behind them. -/
def Apart (parts : List AliasPart) (behind : Text) : Prop :=
  ∀ part ∈ parts.getLast?, ∀ c ∈ behind.head?, isIdentifierPart c = true → ∃ t, part = .stretch t

theorem Apart.of_cons {first : AliasPart} (h : Apart (first :: parts) u) : Apart parts u := by
  intro part hpart
  refine h part ?_
  cases parts with
  | nil => cases hpart
  | cons next parts => rwa [List.getLast?_cons_cons]

/-- Behind a part that is no stretch stands what follows in its text, or nothing that goes on with
it. -/
theorem Splits.head_behind {first : AliasPart} (h : Splits rest parts)
    (hapart : Apart (first :: parts) u) (hfirst : ∀ t, first ≠ .stretch t) :
    ∀ c ∈ (rest ++ u).head?, c ∈ rest.head? ∨ isIdentifierPart c = false := by
  intro c hc
  cases rest with
  | cons d rest => exact .inl hc
  | nil =>
    obtain rfl := h.unique .nil
    refine .inr (Bool.eq_false_iff.mpr fun hpart => ?_)
    obtain ⟨t, ht⟩ := hapart first rfl c hc hpart
    exact hfirst t ht

/-- The pieces of a text are those of its parts, also before another text that it does not go on
in. -/
theorem Splits.scan_append (h : Splits t parts) (hapart : Apart parts u) :
    AliasPiece.scan (t ++ u) = parts.flatMap pieces ++ AliasPiece.scan u := by
  induction h with
  | nil => rfl
  | @cons first rest later hfirst hrest ih =>
    rw [List.append_assoc, List.flatMap_cons, List.append_assoc, ← ih hapart.of_cons]
    cases first with
    | stretch t => exact scan_stretch hfirst.2.1 _
    | reference name =>
      refine scan_reference hfirst.1 fun c hc => ?_
      obtain hc | hpart := hrest.head_behind hapart (by simp) c hc
      · exact (longest_iff hfirst.1).mp hfirst.2 c hc
      · exact hpart
    | dollar =>
      refine scan_dollar fun c hc => ?_
      obtain hc | hpart := hrest.head_behind hapart (by simp) c hc
      · exact hfirst c hc
      · exact Text.isIdentifierStart_of_isIdentifierPart hpart

theorem Splits.scan_eq (h : Splits t parts) : AliasPiece.scan t = parts.flatMap pieces := by
  have hscan := h.scan_append (u := []) fun _ _ _ hc => by cases hc
  simpa [AliasPiece.scan] using hscan

end Scanning

end AliasPart

namespace AliasTable

open AliasPart

section Expansion

variable {table : AliasTable} {t : Text} {parts : List AliasPart}

/-- What a part is expanded to. -/
def expandPart (table : AliasTable) : AliasPart → Checked Text
  | .stretch t => .ok t
  | .reference name => table.resolve (.reference name)
  | .dollar => .ok ['$']

theorem expandPart_eq_ok {part : AliasPart} {t : Text} :
    table.expandPart part = .ok t ↔ part.meaning? table = some t := by
  cases part with
  | stretch u => simp [expandPart, meaning?]
  | reference name =>
    rw [expandPart, resolve, meaning?]
    cases table.get? (String.ofList name) with
    | none => exact iff_of_false fail_ne_ok (by simp)
    | some text => simp
  | dollar => simp [expandPart, meaning?]

theorem expandPart_eq_error {part : AliasPart} {e : Fault} : table.expandPart part = .error e ↔
    ∃ name, part = .reference name ∧ table.get? (String.ofList name) = none ∧
      e = (Cause.undefinedAlias (String.ofList name)).fault := by
  cases part with
  | stretch u => simp [expandPart]
  | reference name =>
    rw [expandPart, resolve]
    cases htext : table.get? (String.ofList name) with
    | none => simp [fail, htext, eq_comm]
    | some text => simp [htext]
  | dollar => simp [expandPart]

theorem map_flatten_mapM_singleton {α : Type} (f : α → Checked Text) (x : α) :
    ([x].mapM f).map List.flatten = f x := by
  rw [List.mapM_cons]
  cases f x with
  | error e => rfl
  | ok t => exact congrArg Except.ok (List.append_nil t)

/-- What is gathered from two lists is gathered from one and then from the other. -/
theorem map_flatten_mapM_append {α : Type} (f : α → Checked Text) (xs ys : List α) :
    ((xs ++ ys).mapM f).map List.flatten = (xs.mapM f).map List.flatten >>= fun out =>
      ((ys.mapM f).map List.flatten).map (out ++ ·) := by
  rw [List.mapM_append]
  cases xs.mapM f with
  | error e => rfl
  | ok texts =>
    cases ys.mapM f with
    | error e => rfl
    | ok more => exact congrArg Except.ok List.flatten_append

/-- Characters stand for themselves. -/
theorem mapM_resolve_plain (table : AliasTable) (t : Text) :
    (t.map AliasPiece.plain).mapM table.resolve = .ok (t.map fun c => [c]) := by
  rw [mapM_eq_ok, List.forall₂_map_left_iff, List.forall₂_map_right_iff]
  exact List.forall₂_same.mpr fun c _ => rfl

/-- The pieces of a part are expanded to what the part is expanded to. -/
theorem map_flatten_mapM_pieces (table : AliasTable) (part : AliasPart) :
    (part.pieces.mapM table.resolve).map List.flatten = table.expandPart part := by
  cases part with
  | stretch t =>
    rw [pieces, mapM_resolve_plain, expandPart, Except.map, ← List.flatMap_def,
      List.flatMap_singleton']
  | reference name => exact map_flatten_mapM_singleton table.resolve (.reference name)
  | dollar => rfl

theorem map_flatten_mapM_flatMap (table : AliasTable) (parts : List AliasPart) :
    ((parts.flatMap pieces).mapM table.resolve).map List.flatten =
      (parts.mapM table.expandPart).map List.flatten := by
  induction parts with
  | nil => rfl
  | cons part parts ih =>
    have hsplit : part :: parts = [part] ++ parts := rfl
    rw [List.flatMap_cons, map_flatten_mapM_append, map_flatten_mapM_pieces, ih, hsplit,
      map_flatten_mapM_append, map_flatten_mapM_singleton]

theorem expandText_of_splits (h : Splits t parts) :
    table.expandText t = (parts.mapM table.expandPart).map List.flatten := by
  rw [expandText, h.scan_eq, map_flatten_mapM_flatMap]

/-- A text is expanded to what its parts stand for. -/
theorem expandText_eq_ok (h : Splits t parts) {out : Text} :
    table.expandText t = .ok out ↔ ∃ texts,
      List.Forall₂ (fun part text => part.meaning? table = some text) parts texts ∧
      out = texts.flatten := by
  rw [expandText_of_splits h, map_eq_ok]
  simp only [mapM_eq_ok, expandPart_eq_ok]
  exact exists_congr fun texts => and_congr_right fun _ => eq_comm

/-- A text is not expanded if a name in it is not defined. -/
theorem expandText_eq_error (h : Splits t parts) {e : Fault} :
    table.expandText t = .error e ↔ ∃ before name after,
      parts = before ++ .reference name :: after ∧
      (∀ part ∈ before, ∃ text, part.meaning? table = some text) ∧
      table.get? (String.ofList name) = none ∧
      e = (Cause.undefinedAlias (String.ofList name)).fault := by
  rw [expandText_of_splits h, map_eq_error, mapM_eq_error]
  simp only [expandPart_eq_ok, expandPart_eq_error]
  constructor
  · rintro ⟨before, _, after, rfl, hbefore, name, rfl, hname, rfl⟩
    exact ⟨before, name, after, rfl, hbefore, hname, rfl⟩
  · rintro ⟨before, name, after, rfl, hbefore, hname, rfl⟩
    exact ⟨before, _, after, rfl, hbefore, name, rfl, hname, rfl⟩

/-- Texts with no name going on from one to the other are expanded one by one. -/
theorem expandText_append (h : Splits t parts) {u : Text} (hapart : Apart parts u) :
    table.expandText (t ++ u) =
      table.expandText t >>= fun out => (table.expandText u).map (out ++ ·) := by
  rw [expandText, h.scan_append hapart, map_flatten_mapM_append, ← h.scan_eq]
  rfl

/-- Only references may have no meaning. -/
theorem forall_meaning?_iff : (∀ part ∈ parts, ∃ text, part.meaning? table = some text) ↔
    ∀ name, .reference name ∈ parts → ∃ text, table.get? (String.ofList name) = some text := by
  constructor
  · intro h name hname
    obtain ⟨t, ht⟩ := h _ hname
    obtain ⟨text, htext, -⟩ := Option.map_eq_some_iff.mp ht
    exact ⟨text, htext⟩
  · intro h part hpart
    cases part with
    | stretch t => exact ⟨t, rfl⟩
    | reference name =>
      obtain ⟨text, htext⟩ := h name hpart
      exact ⟨text.toList, by rw [meaning?, htext, Option.map_some]⟩
    | dollar => exact ⟨_, rfl⟩

theorem exists_expandText_eq_ok (h : Splits t parts) : (∃ out, table.expandText t = .ok out) ↔
    ∀ part ∈ parts, ∃ text, part.meaning? table = some text := by
  simp only [expandText_of_splits h, ← expandPart_eq_ok]
  constructor
  · rintro ⟨out, hout⟩ part hpart
    obtain ⟨texts, htexts, -⟩ := map_eq_ok.mp hout
    obtain ⟨text, -, htext⟩ := forall₂_mem_left (mapM_eq_ok.mp htexts) hpart
    exact ⟨text, htext⟩
  · intro hparts
    obtain ⟨texts, htexts⟩ := exists_mapM_eq_ok hparts
    exact ⟨_, map_eq_ok.mpr ⟨texts, htexts, rfl⟩⟩

end Expansion

theorem expand_eq_ok {table : AliasTable} {s out : String} :
    table.expand s = .ok out ↔ table.expandText s.toList = .ok out.toList := by
  rw [expand, map_eq_ok]
  constructor
  · rintro ⟨t, ht, rfl⟩
    rw [ht, String.toList_ofList]
  · intro h
    exact ⟨_, h, String.ofList_toList⟩

/-- A text falls into parts in one way. It is expanded if every name in it is defined, to what its
parts stand for one after the other; otherwise the first name that is not is reported. Two texts
that no name goes on between are expanded together to what they are expanded to. -/
theorem expand_outcome (table : AliasTable) :
    (∀ t, ∃! parts, Splits t parts) ∧
    (∀ (s : String) (parts : List AliasPart), Splits s.toList parts →
      ((∃ out, table.expand s = .ok out) ↔ ∀ name, .reference name ∈ parts →
        ∃ text, table.get? (String.ofList name) = some text) ∧
      (∀ out, table.expand s = .ok out ↔ ∃ texts,
        List.Forall₂ (fun part text => part.meaning? table = some text) parts texts ∧
        out.toList = texts.flatten) ∧
      ∀ e, table.expand s = .error e ↔ ∃ before name after,
        parts = before ++ .reference name :: after ∧
        (∀ known, .reference known ∈ before →
          ∃ text, table.get? (String.ofList known) = some text) ∧
        table.get? (String.ofList name) = none ∧
        e = (Cause.undefinedAlias (String.ofList name)).fault ∧ e.kind = .referenceError) ∧
    ∀ (s s' out out' : String) (parts : List AliasPart), Splits s.toList parts →
      Apart parts s'.toList → table.expand s = .ok out → table.expand s' = .ok out' →
      table.expand (s ++ s') = .ok (out ++ out') := by
  refine ⟨fun t => ?_, fun s parts h => ⟨?_, fun out => ?_, fun e => ?_⟩, ?_⟩
  · obtain ⟨parts, hparts⟩ := exists_splits t
    exact ⟨parts, hparts, fun other hother => hother.unique hparts⟩
  · rw [← forall_meaning?_iff, ← exists_expandText_eq_ok h]
    simp only [expand_eq_ok]
    constructor
    · rintro ⟨out, hout⟩
      exact ⟨_, hout⟩
    · rintro ⟨out, hout⟩
      exact ⟨String.ofList out, by rw [hout, String.toList_ofList]⟩
  · rw [expand_eq_ok, expandText_eq_ok h]
  · rw [expand, map_eq_error, expandText_eq_error h]
    simp only [forall_meaning?_iff]
    constructor
    · rintro ⟨before, name, after, hparts, hbefore, hname, rfl⟩
      exact ⟨before, name, after, hparts, hbefore, hname, rfl, rfl⟩
    · rintro ⟨before, name, after, hparts, hbefore, hname, he, -⟩
      exact ⟨before, name, after, hparts, hbefore, hname, he⟩
  · intro s s' out out' parts h hapart hout hout'
    rw [expand_eq_ok] at hout hout' ⊢
    rw [String.toList_append, String.toList_append, expandText_append h hapart, hout, hout']
    rfl

/-- An alias that stands for a reference, and the one that it refers to. -/
def chainedAliases : AliasTable := ⟨[("a", "$b"), ("b", "x")]⟩

theorem expand_outcome_of_chainedAliases :
    let parts : List AliasPart :=
      [.stretch "in=".toList, .reference ['a'], .stretch ", ".toList, .dollar]
    Splits "in=$a, $".toList parts ∧ Apart parts " $b$".toList ∧
      chainedAliases.expand "in=$a, $" = .ok "in=$b, $" ∧
      chainedAliases.expand ("in=$a, $" ++ " $b$") = .ok ("in=$b, $" ++ " x$") := by
  intro parts
  have hdollar : ∀ t : Text, ∀ c ∈ ('$' :: t).head?, c = '$' :=
    fun t c hc => (Option.some.inj hc).symm
  have hcomma : ∀ c ∈ ", $".toList.head?, isIdentifierPart c = false := by
    intro c hc
    obtain rfl : c = ',' := (Option.some.inj hc).symm
    rfl
  have hsplits : Splits "in=$a, $".toList parts :=
    @Splits.cons (.stretch "in=".toList) "$a, $".toList _ ⟨by decide, by decide, hdollar _⟩
      (@Splits.cons (.reference ['a']) ", $".toList _
        ⟨by decide, (longest_iff (by decide)).mpr hcomma⟩
        (@Splits.cons (.stretch ", ".toList) ['$'] _ ⟨by decide, by decide, hdollar _⟩
          (@Splits.cons .dollar [] _ (by simp [Leads]) .nil)))
  have hapart : Apart parts " $b$".toList := by
    intro part _ c hc
    obtain rfl : c = ' ' := (Option.some.inj hc).symm
    exact fun h => absurd h (by decide)
  have hout : chainedAliases.expand "in=$a, $" = .ok "in=$b, $" := by
    refine (((expand_outcome chainedAliases).2.1 _ _ hsplits).2.1 _).mpr
      ⟨["in=".toList, "$b".toList, ", ".toList, ['$']], ?_, by decide⟩
    exact .cons rfl (.cons rfl (.cons rfl (.cons rfl .nil)))
  exact ⟨hsplits, hapart, hout, (expand_outcome chainedAliases).2.2 _ _ _ _ parts hsplits hapart
    hout (by decide +kernel)⟩

end AliasTable

end Routespec
