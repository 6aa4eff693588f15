import Mathlib.Data.List.Flatten
import Routespec.Interface.Resolution
import Routespec.Proofs.Resolution

/-!
# Names of operations

An operation is found by its name if no other one has it. The operations of one method are told
apart by their numbers; those of two methods are unless one of the methods is named like the other
with digits behind it that, together with a number of its own, make a number of the other.
-/

namespace Routespec

/-- Two ways to cut a string differ by what is between the cuts. -/
theorem append_eq_append_cases {a b s t : String} (h : a ++ s = b ++ t) :
    (∃ d, b = a ++ d ∧ s = d ++ t) ∨ ∃ d, a = b ++ d ∧ t = d ++ s := by
  have h := congrArg String.toList h
  rw [String.toList_append, String.toList_append, List.append_eq_append_iff] at h
  rcases h with ⟨d, hb, hs⟩ | ⟨d, ha, ht⟩
  · refine .inl ⟨String.ofList d, ?_, ?_⟩ <;> simp [← String.toList_inj, hb, hs]
  · refine .inr ⟨String.ofList d, ?_, ?_⟩ <;> simp [← String.toList_inj, ha, ht]

theorem append_left_injective (a : String) : Function.Injective (a ++ ·) := by
  intro s t h
  have h := congrArg String.toList h
  simpa [← String.toList_inj] using h

theorem toString_injective : Function.Injective (toString : Nat → String) := by
  intro i j h
  have hdigits : Nat.toDigits 10 i = Nat.toDigits 10 j := by
    simpa [Nat.toString_eq_ofList_toDigits, ← String.toList_inj] using h
  have hvalue := congrArg (fun digits => Nat.ofDigitChars 10 digits 0) hdigits
  simpa using hvalue

namespace Method

/-- What stands behind the name of the method in the names of its operations: nothing if there is
one, or else their numbers. -/
def nameSuffixes (count : Nat) : List String :=
  if count > 1 then (List.range count).map fun i => toString (i + 1) else List.replicate count ""

variable {m : Method} {aliases : AliasTable} {options : ResolveOptions} {r : MethodResolution}

theorem nodup_nameSuffixes (count : Nat) : (nameSuffixes count).Nodup := by
  unfold nameSuffixes
  split
  · refine List.nodup_range.map fun i j h => ?_
    have hsucc : i + 1 = j + 1 := toString_injective h
    omega
  · next hcount =>
    have hcases : count = 0 ∨ count = 1 := by omega
    rcases hcases with rfl | rfl <;> simp

theorem isDigit_of_mem_nameSuffixes {count : Nat} {s : String} (hs : s ∈ nameSuffixes count) :
    ∀ c ∈ s.toList, c.isDigit = true := by
  unfold nameSuffixes at hs
  split at hs
  · obtain ⟨i, -, rfl⟩ := List.mem_map.mp hs
    intro c hc
    rw [Nat.toString_eq_ofList_toDigits, String.toList_ofList] at hc
    exact Nat.isDigit_of_mem_toDigits (by decide) (by decide) hc
  · rw [List.eq_of_mem_replicate hs]
    simp

theorem map_operationName (count : Nat) :
    (List.range count).map (m.operationName count) = (nameSuffixes count).map (m.name ++ ·) := by
  unfold nameSuffixes
  split
  · next hcount =>
    rw [List.map_map]
    exact List.map_congr_left fun i _ => by simp [operationName, hcount]
  · next hcount =>
    rw [List.map_replicate, String.append_empty, List.eq_replicate_iff]
    refine ⟨by simp, fun name hname => ?_⟩
    obtain ⟨i, -, rfl⟩ := List.mem_map.mp hname
    simp [operationName, hcount]

/-- The operations of a method are named after it, with their numbers behind if there are
several. -/
theorem names_of_resolve (h : m.resolve aliases options = .ok r) :
    r.operations.map (·.name) = (nameSuffixes r.operations.length).map (m.name ++ ·) := by
  rcases resolve_cases h with rfl | ⟨decl, plan, hres⟩
  · rfl
  · obtain ⟨success, description, -, hserved⟩ := hres.served
    have hserved := mapM_eq_ok.mp hserved
    have hlength : decl.routes.length = r.operations.length := by
      simpa using hserved.length_eq
    have hnames : r.operations.map (·.name) =
        decl.routes.zipIdx.map fun route => m.operationName r.operations.length route.2 := by
      rw [← List.forall₂_eq_eq_eq, List.forall₂_map_left_iff, List.forall₂_map_right_iff]
      refine hserved.flip.imp fun o route ho => ?_
      obtain ⟨request, -, rfl⟩ := map_eq_ok.mp ho
      rw [hlength]
    rw [hnames, ← map_operationName, ← hlength, List.range_eq_range', ← List.zipIdx_map_snd,
      List.map_map]
    rfl

theorem methodName_of_resolve (h : m.resolve aliases options = .ok r) {o : Operation}
    (ho : o ∈ r.operations) : o.methodName = m.name := by
  obtain ⟨decl, plan, hres⟩ := resolves_of_mem h ho
  obtain ⟨success, description, -, hserved⟩ := hres.served
  obtain ⟨route, -, ho⟩ := forall₂_mem_right (mapM_eq_ok.mp hserved) ho
  obtain ⟨request, -, rfl⟩ := map_eq_ok.mp ho
  rfl

end Method

namespace Interface

/-- The methods that resolve, with what they resolve to. -/
def resolved (i : Interface) (aliases : AliasTable) (options : ResolveOptions) :
    List (Method × MethodResolution) :=
  i.methods.filterMap fun m =>
    match m.resolve aliases options with
    | .ok r => some (m, r)
    | .error _ => none

/-- Some method is named like another one with something behind that, together with what it adds to
the name of one of its operations, the other one adds to its own. -/
def NamesClash (i : Interface) (aliases : AliasTable) (options : ResolveOptions) : Prop :=
  ∃ m ∈ i.methods, ∃ m' ∈ i.methods, ∃ r r' d s,
    m.resolve aliases options = .ok r ∧ m'.resolve aliases options = .ok r' ∧
    d ≠ "" ∧ m'.name = m.name ++ d ∧
    s ∈ Method.nameSuffixes r'.operations.length ∧
    d ++ s ∈ Method.nameSuffixes r.operations.length

variable {i : Interface} {aliases : AliasTable} {options : ResolveOptions} {res : Resolution}

theorem mem_resolved {m : Method} {r : MethodResolution} :
    (m, r) ∈ i.resolved aliases options ↔ m ∈ i.methods ∧ m.resolve aliases options = .ok r := by
  rw [resolved, List.mem_filterMap]
  constructor
  · rintro ⟨m', hm, h⟩
    split at h
    · next r' hr =>
      obtain ⟨rfl, rfl⟩ := Prod.mk.inj (Option.some.inj h)
      exact ⟨hm, hr⟩
    · cases h
  · rintro ⟨hm, hr⟩
    exact ⟨m, hm, by rw [hr]⟩

/-- The operations of an interface are those of its methods that resolve, in order. -/
theorem resolve_eq_ok (h : i.resolve options = .ok res) :
    ∃ p, i.preamble = .ok p ∧
      res.spec.operations = (i.resolved p.aliases options).flatMap (·.2.operations) := by
  obtain ⟨p, hp, h⟩ := bind_eq_ok.mp h
  obtain rfl := pure_eq_ok.mp h
  refine ⟨p, hp, ?_⟩
  dsimp only
  rw [resolved, List.flatMap_def, List.flatMap_def, List.map_filterMap, List.map_filterMap,
    List.filterMap_map]
  refine congrArg _ (List.filterMap_congr fun m _ => ?_)
  rw [Function.comp_apply]
  cases m.resolve p.aliases options <;> rfl

theorem disjoint_names (hclash : ¬ i.NamesClash aliases options) {m m' : Method}
    {r r' : MethodResolution} (hm : (m, r) ∈ i.resolved aliases options)
    (hm' : (m', r') ∈ i.resolved aliases options) (hne : m.name ≠ m'.name) :
    List.Disjoint (r.operations.map (·.name)) (r'.operations.map (·.name)) := by
  obtain ⟨hm, hr⟩ := mem_resolved.mp hm
  obtain ⟨hm', hr'⟩ := mem_resolved.mp hm'
  intro name hname hname'
  rw [Method.names_of_resolve hr] at hname
  rw [Method.names_of_resolve hr'] at hname'
  obtain ⟨s, hs, rfl⟩ := List.mem_map.mp hname
  obtain ⟨s', hs', heq⟩ := List.mem_map.mp hname'
  -- the longer of the two names goes on with part of what is behind the shorter one
  rcases append_eq_append_cases heq with ⟨d, hd, rfl⟩ | ⟨d, hd, rfl⟩
  · refine hclash ⟨m', hm', m, hm, r', r, d, s, hr', hr, ?_, hd, hs, hs'⟩
    rintro rfl
    simp [hd] at hne
  · refine hclash ⟨m, hm, m', hm', r, r', d, s', hr, hr', ?_, hd, hs', hs⟩
    rintro rfl
    simp [hd] at hne

theorem exists_same_name (hclash : i.NamesClash aliases options) :
    ∃ o ∈ (i.resolved aliases options).flatMap (·.2.operations),
      ∃ o' ∈ (i.resolved aliases options).flatMap (·.2.operations),
        o.name = o'.name ∧ o.methodName ≠ o'.methodName := by
  obtain ⟨m, hm, m', hm', r, r', d, s, hr, hr', hd, hname, hs, hds⟩ := hclash
  have ho : m.name ++ (d ++ s) ∈ r.operations.map (·.name) := by
    rw [Method.names_of_resolve hr]
    exact List.mem_map.mpr ⟨_, hds, rfl⟩
  have ho' : m'.name ++ s ∈ r'.operations.map (·.name) := by
    rw [Method.names_of_resolve hr']
    exact List.mem_map.mpr ⟨_, hs, rfl⟩
  obtain ⟨o, ho, hon⟩ := List.mem_map.mp ho
  obtain ⟨o', ho', hon'⟩ := List.mem_map.mp ho'
  refine ⟨o, List.mem_flatMap.mpr ⟨(m, r), mem_resolved.mpr ⟨hm, hr⟩, ho⟩, o',
    List.mem_flatMap.mpr ⟨(m', r'), mem_resolved.mpr ⟨hm', hr'⟩, ho'⟩, ?_, ?_⟩
  · rw [hon, hon', hname, String.append_assoc]
  · rw [Method.methodName_of_resolve hr ho, Method.methodName_of_resolve hr' ho', hname]
    intro heq
    have hempty : m.name ++ "" = m.name ++ d := by rw [String.append_empty, ← heq]
    exact hd (append_left_injective m.name hempty).symm

theorem nodup_names (hdistinct : (i.methods.map (·.name)).Nodup)
    (hclash : ¬ i.NamesClash aliases options) :
    (((i.resolved aliases options).flatMap (·.2.operations)).map (·.name)).Nodup := by
  rw [List.map_flatMap, List.nodup_flatMap]
  constructor
  · rintro ⟨m, r⟩ hm
    rw [Method.names_of_resolve (mem_resolved.mp hm).2]
    exact (Method.nodup_nameSuffixes _).map (append_left_injective m.name)
  · have hresolved : (i.resolved aliases options).Pairwise fun x y => x.1.name ≠ y.1.name := by
      rw [resolved, List.pairwise_filterMap]
      refine (List.pairwise_map.mp hdistinct).imp fun {m m'} hne x hx x' hx' => ?_
      split at hx
      · split at hx'
        · obtain rfl := Option.some.inj hx
          obtain rfl := Option.some.inj hx'
          exact hne
        · cases hx'
      · cases hx
    exact hresolved.imp_of_mem fun {x y} hx hy hne => disjoint_names hclash hx hy hne

/-- Names of operations are distinct, and find their operations, exactly if no names clash. -/
theorem operationNames_nodup_iff (hdistinct : (i.methods.map (·.name)).Nodup)
    (h : i.resolve options = .ok res) : ∃ p, i.preamble = .ok p ∧
      ((res.spec.operations.map (·.name)).Nodup ↔ ¬ i.NamesClash p.aliases options) ∧
      ((∀ o ∈ res.spec.operations, res.spec.operation? o.name = some o) ↔
        ¬ i.NamesClash p.aliases options) := by
  obtain ⟨p, hp, hoperations⟩ := resolve_eq_ok h
  have hnodup : ¬ i.NamesClash p.aliases options → (res.spec.operations.map (·.name)).Nodup := by
    rw [hoperations]
    exact nodup_names hdistinct
  refine ⟨p, hp, ⟨fun hnames hclash => ?_, hnodup⟩, fun hfinds hclash => ?_, fun hfree o ho => ?_⟩
  · obtain ⟨o, ho, o', ho', hsame, hother⟩ := exists_same_name hclash
    rw [← hoperations] at ho ho'
    exact hother (congrArg _ (List.inj_on_of_nodup_map hnames ho ho' hsame))
  · obtain ⟨o, ho, o', ho', hsame, hother⟩ := exists_same_name hclash
    rw [← hoperations] at ho ho'
    have hfound := hfinds o ho
    rw [hsame, hfinds o' ho'] at hfound
    exact hother (congrArg _ (Option.some.inj hfound).symm)
  · exact find?_eq_some_of_nodup (hnodup hfree) ho

/-- No names clash if no method is named like another one with digits behind it. -/
theorem not_namesClash_of_digits (h : ∀ m ∈ i.methods, ∀ m' ∈ i.methods, ∀ d, d ≠ "" →
    (∀ c ∈ d.toList, c.isDigit = true) → m'.name ≠ m.name ++ d) :
    ¬ i.NamesClash aliases options := by
  rintro ⟨m, hm, m', hm', r, r', d, s, -, -, hd, hname, -, hds⟩
  refine h m hm m' hm' d hd (fun c hc => ?_) hname
  exact Method.isDigit_of_mem_nameSuffixes hds c (by simp [hc])

/-- A method with two patterns, and another one whose name nothing makes of the first. -/
def noteStore : Interface where
  name := "NoteStore"
  doc := []
  methods := [
    { name := "Get", args := [], returns := [⟨"text", "string", .scalar⟩]
      doc := ["//kun:op GET /a", "//kun:op GET /b"] },
    { name := "Get11", args := [], returns := [⟨"text", "string", .scalar⟩]
      doc := ["//kun:op GET /c"] }]

theorem operationNames_of_noteStore : ∃ res, (noteStore.methods.map (·.name)).Nodup ∧
    noteStore.resolve {} = .ok res ∧
    res.spec.operations.map (·.name) = ["Get1", "Get2", "Get11"] ∧
    ∃ p, noteStore.preamble = .ok p ∧
      ((res.spec.operations.map (·.name)).Nodup ↔ ¬ noteStore.NamesClash p.aliases {}) ∧
      ((∀ o ∈ res.spec.operations, res.spec.operation? o.name = some o) ↔
        ¬ noteStore.NamesClash p.aliases {}) := by
  have hdistinct : (noteStore.methods.map (·.name)).Nodup := by decide
  obtain ⟨res, hres, hnames⟩ : ∃ res, noteStore.resolve {} = .ok res ∧
      res.spec.operations.map (·.name) = ["Get1", "Get2", "Get11"] :=
    exists_ok_of_map (by decide +kernel)
  exact ⟨res, hdistinct, hres, hnames, operationNames_nodup_iff hdistinct hres⟩

/-- A method with two patterns, and another one named like an operation of the first. -/
def itemStore : Interface where
  name := "Items"
  doc := []
  methods := [
    { name := "Get", args := [], returns := [⟨"text", "string", .scalar⟩]
      doc := ["//kun:op GET /a", "//kun:op GET /b"] },
    { name := "Get1", args := [], returns := [⟨"text", "string", .scalar⟩]
      doc := ["//kun:op GET /c"] }]

/-- Names of operations are not distinct, and do not find their operations, for all interfaces whose
methods have distinct names. -/
theorem operationNames_clash :
    ¬ (∀ (i : Interface) (options : ResolveOptions) (res : Resolution),
      (i.methods.map (·.name)).Nodup → i.resolve options = .ok res →
      (res.spec.operations.map (·.name)).Nodup ∧
        ∀ o ∈ res.spec.operations, res.spec.operation? o.name = some o) := by
  intro h
  obtain ⟨res, hres, hnames⟩ : ∃ res, itemStore.resolve {} = .ok res ∧
      res.spec.operations.map (·.name) = ["Get1", "Get2", "Get1"] :=
    exists_ok_of_map (by decide +kernel)
  have hnodup := (h itemStore {} res (by decide) hres).1
  rw [hnames] at hnodup
  exact absurd hnodup (by decide)

end Interface

end Routespec
