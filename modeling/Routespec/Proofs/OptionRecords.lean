import Mathlib.Logic.Function.Basic
import Routespec.Proofs.Declarations

/-!
# Parameter options and the pairs that give them

The options of a parameter are those that its pairs give, each by its key, in whatever order they
stand. Pairs that give the same options therefore differ in their order only.
-/

namespace Routespec

theorem word_of_readLocation {value : String} {l : Location} (h : readLocation value = .ok l) :
    l.word = value := by
  unfold readLocation at h
  split at h
  · next l' hl' =>
    obtain rfl := Except.ok.inj h
    simpa using List.find?_some hl'
  · exact absurd h fail_ne_ok

theorem readLocation_word {l : Location} (hl : l ≠ .body) : readLocation l.word = .ok l := by
  cases l with
  | body => exact absurd rfl hl
  | path | query | header | request => rfl

theorem toString_of_readBool {key value : String} {b : Bool} (h : readBool key value = .ok b) :
    toString b = value := by
  unfold readBool at h
  split at h
  · next hvalue => exact Except.ok.inj h ▸ hvalue.symm
  · split at h
    · next hvalue => exact Except.ok.inj h ▸ hvalue.symm
    · exact absurd h fail_ne_ok

theorem readBool_toString (key : String) (b : Bool) : readBool key (toString b) = .ok b := by
  cases b <;> rfl

theorem toString_bool_injective : Function.Injective (toString : Bool → String) := by
  intro b b' h
  have hread := readBool_toString "" b
  rw [h, readBool_toString] at hread
  exact (Except.ok.inj hread).symm

theorem Location.word_injective : Function.Injective Location.word := by
  intro l l' h
  have hword := congrArg Location.ofWord? h
  rw [ofWord?_word, ofWord?_word] at hword
  exact Option.some.inj hword

namespace ParamOptions

/-- The text of the option with the given key, if it is set. -/
def given (o : ParamOptions) (key : String) : Option String :=
  if key = "in" then o.location.map Location.word
  else if key = "name" then o.name
  else if key = "required" then o.required.map toString
  else if key = "type" then o.ty
  else if key = "descr" then o.description
  else none

/-- The options that are set, as pairs in the order of the keys. -/
def pairs (o : ParamOptions) : List OptionPair :=
  (keys.map (·.word)).filterMap fun word => (o.given word).map fun value => ⟨word, value⟩

/-- Options are known by what they give. -/
theorem given_injective : Function.Injective given := by
  intro o o' h
  have hin : o.location.map Location.word = o'.location.map Location.word := congrFun h "in"
  have hname : o.name = o'.name := congrFun h "name"
  have hrequired : o.required.map toString = o'.required.map toString := congrFun h "required"
  have hty : o.ty = o'.ty := congrFun h "type"
  have hdescription : o.description = o'.description := congrFun h "descr"
  obtain ⟨location, name, required, ty, description⟩ := o
  rw [mk.injEq]
  exact ⟨Option.map_injective Location.word_injective hin, hname,
    Option.map_injective toString_bool_injective hrequired, hty, hdescription⟩

/-- Setting an option gives its value under its key, and nothing else changes. -/
theorem given_set {key : OptionKey ParamOptions} (hkey : key ∈ keys) {value : String}
    {o o' : ParamOptions} (h : key.set value o = .ok o') :
    o'.given = Function.update o.given key.word (some value) := by
  simp only [keys, List.mem_cons, List.not_mem_nil, or_false] at hkey
  funext word
  rw [Function.update_apply]
  rcases hkey with rfl | rfl | rfl | rfl | rfl
  · obtain ⟨l, hl, rfl⟩ := map_eq_ok.mp h
    obtain rfl := word_of_readLocation hl
    grind [given]
  · obtain rfl := Except.ok.inj h
    grind [given]
  · obtain ⟨_, hread, rfl⟩ := map_eq_ok.mp h
    obtain ⟨b, hb, hsome⟩ := bind_eq_ok.mp hread
    obtain rfl := pure_eq_ok.mp hsome
    obtain rfl := toString_of_readBool hb
    grind [given]
  · obtain rfl := Except.ok.inj h
    grind [given]
  · obtain rfl := Except.ok.inj h
    grind [given]

/-- What options give is accepted under its key, whatever the record. -/
theorem exists_set {o : ParamOptions} (hbody : o.LeaveBody) {word value : String}
    (h : o.given word = some value) (record : ParamOptions) :
    ∃ key record', keys.find? (·.word = word) = some key ∧ key.set value record = .ok record' := by
  unfold given at h
  split_ifs at h with hin hname hrequired hty hdescription
  · obtain ⟨l, hl, rfl⟩ := Option.map_eq_some_iff.mp h
    have hread : readLocation l.word = .ok l := readLocation_word fun hl' => hbody (hl' ▸ hl)
    exact hin ▸ ⟨_, _, rfl, map_eq_ok.mpr ⟨l, hread, rfl⟩⟩
  · exact hname ▸ ⟨_, _, rfl, rfl⟩
  · obtain ⟨b, -, rfl⟩ := Option.map_eq_some_iff.mp h
    have hread : readBool "required" (toString b) >>= (pure ∘ some) = .ok (some b) := by
      rw [readBool_toString]
      rfl
    exact hrequired ▸ ⟨_, _, rfl, map_eq_ok.mpr ⟨_, hread, rfl⟩⟩
  · exact hty ▸ ⟨_, _, rfl, rfl⟩
  · exact hdescription ▸ ⟨_, _, rfl, rfl⟩

/-- Pairs with distinct keys fill a record in to the one that gives their values and, under all
other keys, what was given at the start. -/
theorem fill_of_given {o : ParamOptions} (hbody : o.LeaveBody) {pairs : List OptionPair}
    {seen : List String} {record : ParamOptions}
    (hgiven : ∀ pair ∈ pairs, o.given pair.key = some pair.value)
    (hfresh : ∀ pair ∈ pairs, pair.key ∉ seen) (hdistinct : (pairs.map (·.key)).Nodup)
    (hrest : ∀ word, word ∉ pairs.map (·.key) → record.given word = o.given word) :
    OptionKey.fill keys seen record pairs = .ok o := by
  induction pairs generalizing seen record with
  | nil =>
    have hsame : record.given = o.given := funext fun word => hrest word List.not_mem_nil
    rw [OptionKey.fill, given_injective hsame]
  | cons pair pairs ih =>
    rw [List.forall_mem_cons] at hgiven hfresh
    rw [List.map_cons, List.nodup_cons] at hdistinct
    obtain ⟨key, record', hkey, hset⟩ := exists_set hbody hgiven.1 record
    have hword : key.word = pair.key := by simpa using List.find?_some hkey
    have hrecord := given_set (List.mem_of_find?_eq_some hkey) hset
    rw [OptionKey.fill, hkey]
    dsimp only
    rw [if_neg hfresh.1, hset]
    refine ih hgiven.2 (fun other hother hmem => ?_) hdistinct.2 fun word hmem => ?_
    · rcases List.mem_cons.mp hmem with heq | hmem
      · exact hdistinct.1 (heq ▸ List.mem_map_of_mem hother)
      · exact hfresh.2 other hother hmem
    · rw [hrecord, Function.update_apply, hword]
      split
      · next heq => rw [heq, hgiven.1]
      · next hne => exact hrest word (by simpa [hne] using hmem)

/-- What was given before pairs are filled in stays, and each of them gives its value. -/
theorem given_of_fill {pairs : List OptionPair} {seen : List String} {record o : ParamOptions}
    (h : OptionKey.fill keys seen record pairs = .ok o) :
    (∀ word ∈ seen, o.given word = record.given word) ∧
      ∀ pair ∈ pairs, o.given pair.key = some pair.value := by
  induction pairs generalizing seen record with
  | nil =>
    obtain rfl := Except.ok.inj h
    exact ⟨fun _ _ => rfl, by simp⟩
  | cons pair pairs ih =>
    obtain ⟨key, record', hkey, hfresh, hset, h⟩ := OptionKey.fill_cons_eq_ok.mp h
    have hword : key.word = pair.key := by simpa using List.find?_some hkey
    have hrecord := given_set (List.mem_of_find?_eq_some hkey) hset
    rw [hword] at hrecord
    obtain ⟨hseen, hpairs⟩ := ih h
    rw [List.forall_mem_cons] at hseen ⊢
    refine ⟨fun word hmem => ?_, ?_, hpairs⟩
    · rw [hseen.2 word hmem, hrecord, Function.update_of_ne (ne_of_mem_of_not_mem hmem hfresh)]
    · rw [hseen.1, hrecord, Function.update_self]

theorem given_of_ofPairs {pairs : List OptionPair} {o : ParamOptions} (h : ofPairs pairs = .ok o) :
    ∀ pair ∈ pairs, o.given pair.key = some pair.value :=
  (given_of_fill h).2

theorem mem_pairs {o : ParamOptions} {pair : OptionPair} :
    pair ∈ o.pairs ↔ o.given pair.key = some pair.value := by
  unfold pairs
  rw [List.mem_filterMap]
  constructor
  · rintro ⟨word, -, hword⟩
    obtain ⟨value, hvalue, rfl⟩ := Option.map_eq_some_iff.mp hword
    exact hvalue
  · intro h
    refine ⟨pair.key, ?_, by rw [h]; rfl⟩
    by_contra hunknown
    simp only [keys, List.map_cons, List.map_nil, List.mem_cons, List.not_mem_nil, or_false,
      not_or] at hunknown
    simp [given, hunknown] at h

theorem nodup_keys_pairs (o : ParamOptions) : (o.pairs.map (·.key)).Nodup := by
  have hkeys : o.pairs.map (·.key) =
      (keys.map (·.word)).filter fun word => (o.given word).isSome := by
    unfold pairs
    rw [List.map_filterMap, ← List.filterMap_eq_filter]
    refine List.filterMap_congr fun word _ => ?_
    cases h : o.given word <;> simp [h, Option.guard]
  rw [hkeys]
  exact List.Nodup.filter _ (by decide)

/-- Options are read off their pairs, in whatever order these stand. -/
theorem ofPairs_of_perm {o : ParamOptions} (hbody : o.LeaveBody) {ps : List OptionPair}
    (h : ps.Perm o.pairs) : ofPairs ps = .ok o := by
  have hkeys := h.map (·.key)
  refine fill_of_given hbody (fun pair hpair => mem_pairs.mp (h.mem_iff.mp hpair)) (by simp)
    (hkeys.nodup_iff.mpr o.nodup_keys_pairs) fun word hword => ?_
  -- what no pair gives is not set
  have hnone : o.given word = none := by
    refine Option.eq_none_iff_forall_ne_some.mpr fun value hvalue => hword ?_
    exact hkeys.mem_iff.mpr (List.mem_map.mpr ⟨⟨word, value⟩, mem_pairs.mpr hvalue, rfl⟩)
  rw [hnone]
  unfold given
  split_ifs <;> rfl

end ParamOptions

end Routespec
