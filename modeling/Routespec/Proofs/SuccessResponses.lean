import Routespec.Proofs.OptionGrammar
import Routespec.Proofs.PrintedTokens
import Routespec.Proofs.Resolution
import Routespec.Proofs.VoidSuccess
import Routespec.Proofs.WrittenDirectives

/-!
# Success responses

What the operations of a method answer with, from what its comment asks for to the response that all
of them share. A status is written as a decimal numeral, of any length but of a value from 100 to
599; whether it is taken depends on what the method returns and on the policy.
-/

namespace Routespec

namespace Decimal

/-- The text is a numeral of `n`: its digits, behind zeros and perhaps a plus sign. -/
def Writes (t : Text) (n : Nat) : Prop :=
  ∃ sign zeros, sign ∈ [[], ['+']] ∧ t = sign ++ (List.replicate zeros '0' ++ Nat.toDigits 10 n)

theorem value_concat (digits : Text) (c : Char) :
    value (digits ++ [c]) = 10 * value digits + digit c := by
  simp [value, valueFrom]

theorem value_replicate_append (zeros : Nat) (digits : Text) :
    value (List.replicate zeros '0' ++ digits) = value digits := by
  induction zeros with
  | zero => rfl
  | succ zeros ih =>
    have hzero : value ('0' :: (List.replicate zeros '0' ++ digits)) =
        value (List.replicate zeros '0' ++ digits) := rfl
    rw [List.replicate_succ, List.cons_append, hzero, ih]

theorem digit_lt {c : Char} (hc : c.isDigit = true) : digit c < 10 := by
  obtain ⟨-, hnine⟩ := Char.isDigit_iff_toNat.mp hc
  change c.toNat - 48 < 10
  change c.toNat ≤ 57 at hnine
  omega

theorem toDigits_digit {c : Char} (hc : c.isDigit = true) : Nat.toDigits 10 (digit c) = [c] := by
  have hlt := digit_lt hc
  rw [Nat.toDigits_of_lt_base hlt, List.singleton_inj]
  apply Char.toNat_inj.mp
  rw [Nat.toNat_digitChar_of_lt_ten hlt]
  obtain ⟨hzero, -⟩ := Char.isDigit_iff_toNat.mp hc
  change 48 + (c.toNat - 48) = c.toNat
  change 48 ≤ c.toNat at hzero
  omega

/-- Digits are those of their value, behind zeros. -/
theorem exists_eq_replicate_append {digits : Text} (hne : digits ≠ [])
    (h : ∀ c ∈ digits, c.isDigit = true) :
    ∃ zeros, digits = List.replicate zeros '0' ++ Nat.toDigits 10 (value digits) := by
  induction digits using List.reverseRecOn with
  | nil => exact absurd rfl hne
  | append_singleton digits c ih =>
    rw [List.forall_mem_append, List.forall_mem_singleton] at h
    rw [value_concat]
    by_cases hdigits : digits = []
    · exact ⟨0, by simp [hdigits, value, valueFrom, toDigits_digit h.2]⟩
    obtain ⟨zeros, hzeros⟩ := ih hdigits h.1
    rcases Nat.eq_zero_or_pos (value digits) with hvalue | hvalue
    · refine ⟨zeros + 1, ?_⟩
      rw [hvalue] at hzeros ⊢
      rw [Nat.mul_zero, Nat.zero_add, toDigits_digit h.2, hzeros, List.replicate_succ']
      rfl
    · refine ⟨zeros, ?_⟩
      rw [← Nat.toDigits_append_toDigits (by decide) hvalue (digit_lt h.2), toDigits_digit h.2,
        ← List.append_assoc, ← hzeros]

theorem dropStart?_plus {digits : Text} (h : ∀ c ∈ digits, c.isDigit = true) :
    Text.dropStart? ['+'] digits = none := by
  cases digits with
  | nil => rfl
  | cons c rest =>
    have hc : '+' ≠ c := by
      rintro rfl
      have hplus := h '+' List.mem_cons_self
      revert hplus
      decide
    rw [Text.dropStart?, if_neg hc]

/-- Exactly the numerals of a number are read as it. -/
theorem ofSigned?_eq_some {t : Text} {n : Nat} : ofSigned? t = some n ↔ Writes t n := by
  unfold ofSigned?
  dsimp only
  constructor
  · intro h
    rw [Option.ite_none_right_eq_some, Option.some.injEq] at h
    obtain ⟨⟨hne, hall⟩, rfl⟩ := h
    obtain ⟨zeros, hzeros⟩ := exists_eq_replicate_append hne (List.all_eq_true.mp hall)
    cases hplus : Text.dropStart? ['+'] t with
    | none =>
      rw [hplus] at hzeros
      exact ⟨[], zeros, by simp, hzeros⟩
    | some rest =>
      rw [hplus] at hzeros
      exact ⟨['+'], zeros, by simp, (Text.eq_append_of_dropStart? hplus).trans
        (congrArg (['+'] ++ ·) hzeros)⟩
  · rintro ⟨sign, zeros, hsign, rfl⟩
    generalize hdigits : List.replicate zeros '0' ++ Nat.toDigits 10 n = digits
    have hall : ∀ c ∈ digits, c.isDigit = true := by
      rw [← hdigits, List.forall_mem_append]
      refine ⟨fun c hc => ?_, fun c => Json.isDigit_of_mem_toDigits⟩
      rw [List.eq_of_mem_replicate hc]
      rfl
    have hne : digits ≠ [] := by
      rw [← hdigits]
      simp [Nat.toDigits_ne_nil]
    have hvalue : value digits = n := by
      rw [← hdigits, value_replicate_append]
      exact Json.valueFrom_toDigits n
    have hdrop : (Text.dropStart? ['+'] (sign ++ digits)).getD (sign ++ digits) = digits := by
      simp only [List.mem_cons, List.not_mem_nil, or_false] at hsign
      obtain rfl | rfl := hsign
      · rw [List.nil_append, dropStart?_plus hall]
        rfl
      · rw [Text.dropStart?_append]
        rfl
    rw [hdrop, if_pos ⟨hne, List.all_eq_true.mpr hall⟩, hvalue]

end Decimal

/-- Exactly the numerals from 100 to 599 are read as a status. -/
theorem readStatus_eq_ok {value : String} {c : UInt16} : readStatus value = .ok c ↔
    Decimal.Writes value.toList c.toNat ∧ 100 ≤ c.toNat ∧ c.toNat ≤ 599 := by
  unfold readStatus
  rw [← Decimal.ofSigned?_eq_some]
  cases Decimal.ofSigned? value.toList with
  | none => simp
  | some n =>
    dsimp only
    rw [Option.some.injEq]
    constructor
    · intro h
      split at h
      · next hrange =>
        obtain rfl := Except.ok.inj h
        have hn : n.toUInt16.toNat = n :=
          UInt16.toNat_ofNat_of_lt' (Nat.lt_of_le_of_lt hrange.2 (by decide))
        rw [hn]
        exact ⟨rfl, hrange⟩
      · exact absurd h fail_ne_ok
    · rintro ⟨rfl, hrange⟩
      rw [if_pos hrange]
      exact congrArg Except.ok UInt16.ofNat_toNat

namespace SuccessRule

/-- The rule has what the option asks for. -/
inductive Heeds (rule : SuccessRule) : OptionPair → Prop
  | statusCode {value : String} {c : UInt16} (hcode : rule.statusCode = some c)
    (hwrites : Decimal.Writes value.toList c.toNat) (hlow : 100 ≤ c.toNat) (hhigh : c.toNat ≤ 599) :
    Heeds rule ⟨"statusCode", value⟩
  | body {name : String} (hbody : rule.body = some name) : Heeds rule ⟨"body", name⟩

/-- The options, none of which is given twice, ask for what the rule has and for nothing else. -/
structure IsGiven (rule : SuccessRule) (pairs : List OptionPair) : Prop where
  distinct : (pairs.map (·.key)).Nodup
  heeded : ∀ pair ∈ pairs, rule.Heeds pair
  statusCode : rule.statusCode ≠ none → "statusCode" ∈ pairs.map (·.key)
  body : rule.body ≠ none → "body" ∈ pairs.map (·.key)

variable {rule start : SuccessRule} {pairs : List OptionPair} {seen : List String}

/-- What filling in an option does. -/
theorem set_cases {key : OptionKey SuccessRule} {value : String} (hkey : key ∈ keys)
    (h : key.set value start = .ok rule) :
    (key.word = "statusCode" ∧
      ∃ c, readStatus value = .ok c ∧ rule = { start with statusCode := some c }) ∨
    (key.word = "body" ∧ rule = { start with body := some value }) := by
  simp only [keys, List.mem_cons, List.not_mem_nil, or_false] at hkey
  rcases hkey with rfl | rfl
  · obtain ⟨c, hc, rfl⟩ := map_eq_ok.mp h
    exact .inl ⟨rfl, c, hc, rfl⟩
  · dsimp only at h
    split at h
    · exact .inr ⟨rfl, (Except.ok.inj h).symm⟩
    · exact absurd h fail_ne_ok

theorem statusCode_of_fill (h : OptionKey.fill keys seen start pairs = .ok rule)
    (hnot : "statusCode" ∉ pairs.map (·.key)) : rule.statusCode = start.statusCode := by
  refine OptionKey.fill_preserves (P := fun r => r.statusCode = start.statusCode)
    (fun key hkey hmem value r r' hset hr => ?_) rfl h
  obtain ⟨hword, -⟩ | ⟨-, rfl⟩ := set_cases hkey hset
  · exact absurd (hword ▸ hmem) hnot
  · exact hr

theorem body_of_fill (h : OptionKey.fill keys seen start pairs = .ok rule)
    (hnot : "body" ∉ pairs.map (·.key)) : rule.body = start.body := by
  refine OptionKey.fill_preserves (P := fun r => r.body = start.body)
    (fun key hkey hmem value r r' hset hr => ?_) rfl h
  obtain ⟨-, c, -, rfl⟩ | ⟨hword, -⟩ := set_cases hkey hset
  · exact hr
  · exact absurd (hword ▸ hmem) hnot

/-- Options that are filled in later do not undo one. -/
theorem heeds_of_fill (h : OptionKey.fill keys seen start pairs = .ok rule) :
    ∀ pair ∈ pairs, rule.Heeds pair := by
  induction pairs generalizing seen start with
  | nil => simp
  | cons pair rest ih =>
    obtain ⟨word, value⟩ := pair
    have hdistinct := (List.nodup_cons.mp (OptionKey.nodup_of_fill h).1).1
    obtain ⟨key, start', hkey, -, hset, hrest⟩ := OptionKey.fill_cons_eq_ok.mp h
    have hword : key.word = word := by simpa using List.find?_some hkey
    rw [List.forall_mem_cons]
    refine ⟨?_, ih hrest⟩
    obtain ⟨hstatus, c, hc, rfl⟩ | ⟨hbody, rfl⟩ := set_cases (List.mem_of_find?_eq_some hkey) hset
    · obtain rfl : word = "statusCode" := hword.symm.trans hstatus
      obtain ⟨hwrites, hlow, hhigh⟩ := readStatus_eq_ok.mp hc
      exact .statusCode (statusCode_of_fill hrest hdistinct) hwrites hlow hhigh
    · obtain rfl : word = "body" := hword.symm.trans hbody
      exact .body (body_of_fill hrest hdistinct)

/-- What a `success` directive is read as. -/
theorem isGiven_of_read {args : String} (h : read args = .ok rule) :
    ∃ pairs, OptionPair.Lists args.toList pairs ∧ rule.IsGiven pairs := by
  obtain ⟨pairs, hpairs, h⟩ := bind_eq_ok.mp h
  refine ⟨pairs, OptionPair.lists_of_readAll hpairs, (OptionKey.nodup_of_fill h).1,
    heeds_of_fill h, fun hgiven => ?_, fun hgiven => ?_⟩
  · by_contra hnot
    exact hgiven (statusCode_of_fill h hnot)
  · by_contra hnot
    exact hgiven (body_of_fill h hnot)

/-- A status that is asked for lies in the range of statuses. -/
theorem IsGiven.range (h : rule.IsGiven pairs) {c : UInt16} (hc : rule.statusCode = some c) :
    100 ≤ c.toNat ∧ c.toNat ≤ 599 := by
  obtain ⟨pair, hpair, hkey⟩ := List.mem_map.mp (h.statusCode (by simp [hc]))
  cases h.heeded pair hpair with
  | statusCode hcode _ hlow hhigh =>
    obtain rfl := Option.some.inj (hcode.symm.trans hc)
    exact ⟨hlow, hhigh⟩
  | body => simp at hkey

end SuccessRule

namespace Method

variable {m : Method} {policy : VoidSuccess} {rule : SuccessRule} {response : Response}

/-- The comment asks for the rule in its only `success` directive, aliases expanded, or it has none
and the rule asks for nothing. -/
def AsksFor (m : Method) (aliases : AliasTable) (rule : SuccessRule) : Prop :=
  ∃ block, CommentBlock.read m.name m.doc = .ok block ∧
    ((block.of .success = [] ∧ rule = {}) ∨
      ∃ d args pairs, block.of .success = [d] ∧ aliases.expand d.args = .ok args ∧
        OptionPair.Lists args.toList pairs ∧ rule.IsGiven pairs)

/-- What a method answers where its comment asks for the rule, and what is noticed. -/
structure Answers (m : Method) (policy : VoidSuccess) (rule : SuccessRule) (response : Response)
    (notices : List Notice) : Prop where
  mediaType : response.mediaType = jsonMediaType
  range : 100 ≤ response.statusCode.toNat ∧ response.statusCode.toNat ≤ 599
  bodiless : response.statusCode = 204 → response.bodyField = none
  void : (∀ v ∈ m.returns, v.shape.isError = true) →
    response.statusCode = 204 ∧ response.bodyField = none ∧
    (rule.statusCode = none ∨ rule.statusCode = some 204 ∨
      (rule.statusCode = some 200 ∧ policy = .amend))
  valued : (∃ v ∈ m.returns, v.shape.isError = false) →
    response.statusCode = rule.statusCode.getD 200 ∧ response.bodyField = rule.body
  named : ∀ name, rule.body = some name → ∃ v ∈ m.returns, v.shape.isError = false ∧ v.name = name
  noticed : notices = if (∀ v ∈ m.returns, v.shape.isError = true) ∧
    rule.statusCode = some 200 ∧ policy = .amend then [m.amendNotice] else []

theorem isVoid_iff : m.isVoid = true ↔ ∀ v ∈ m.returns, v.shape.isError = true := by
  simp [isVoid, results]

theorem checkResult_eq_ok {u : Unit} : m.checkResult rule = .ok u ↔
    ∀ name, rule.body = some name → ∃ v ∈ m.returns, v.shape.isError = false ∧ v.name = name := by
  unfold checkResult
  cases rule.body with
  | none => simp
  | some name => simp [results]

theorem voidCode_eq_ok {code : Option UInt16} {c : UInt16} {amended : Bool} :
    voidCode policy code = .ok (c, amended) ↔ c = voidStatus ∧
      (((code = none ∨ code = some voidStatus) ∧ amended = false) ∨
        (code = some defaultStatus ∧ policy = .amend ∧ amended = true)) := by
  cases code with
  | none => simp [voidCode, eq_comm]
  | some code =>
    rw [voidCode]
    split_ifs with hvoid hdefault
    · simp [hvoid, eq_comm, defaultStatus, voidStatus]
    · have hne : defaultStatus ≠ voidStatus := by decide
      simp [hdefault, hne, eq_comm]
    · refine iff_of_false fail_ne_ok ?_
      rintro ⟨-, ⟨hcode, -⟩ | ⟨hcode, hpolicy, -⟩⟩
      · exact hvoid (by simpa using hcode)
      · exact hdefault ⟨Option.some.inj hcode, hpolicy⟩

theorem valueCode_eq_ok {c : UInt16} : valueCode rule = .ok c ↔
    c = rule.statusCode.getD defaultStatus ∧ (c = voidStatus → rule.body = none) := by
  unfold valueCode
  dsimp only
  rw [← Option.not_isSome_iff_eq_none]
  split_ifs with h
  · refine iff_of_false fail_ne_ok ?_
    rintro ⟨rfl, hbody⟩
    exact hbody h.1 h.2
  · constructor
    · rintro ⟨⟩
      exact ⟨rfl, fun hvoid hbody => h ⟨hvoid, hbody⟩⟩
    · rintro ⟨rfl, -⟩
      rfl

/-- A response that a rule leads to is the one that the method answers with. -/
theorem answers_of_responseOf {amended : Bool}
    (hrange : ∀ c, rule.statusCode = some c → 100 ≤ c.toNat ∧ c.toNat ≤ 599)
    (h : m.responseOf policy rule = .ok (response, amended)) :
    m.Answers policy rule response (if amended then [m.amendNotice] else []) := by
  rw [responseOf_eq] at h
  obtain ⟨_, hnamed, h⟩ := bind_eq_ok.mp h
  obtain ⟨⟨code, amended'⟩, hstatus, h⟩ := map_eq_ok.mp h
  obtain ⟨rfl, rfl⟩ := Prod.mk.inj h
  rw [checkResult_eq_ok] at hnamed
  unfold statusOf at hstatus
  split at hstatus
  · next hvoid =>
    rw [isVoid_iff] at hvoid
    obtain ⟨rfl, hcode⟩ := voidCode_eq_ok.mp hstatus
    have hbody : rule.body = none := by
      by_contra hsome
      obtain ⟨name, hname⟩ := Option.ne_none_iff_exists'.mp hsome
      obtain ⟨v, hv, hvalue, -⟩ := hnamed name hname
      rw [hvoid v hv] at hvalue
      cases hvalue
    exact {
      mediaType := rfl
      range := show 100 ≤ voidStatus.toNat ∧ voidStatus.toNat ≤ 599 by decide
      bodiless := fun _ => hbody
      void := fun _ => ⟨rfl, hbody, by tauto⟩
      valued := fun ⟨v, hv, hvalue⟩ => by simp [hvoid v hv] at hvalue
      named := hnamed
      noticed := by
        obtain ⟨hcode, rfl⟩ | ⟨hcode, hpolicy, rfl⟩ := hcode
        · rw [if_neg Bool.false_ne_true, if_neg]
          rintro ⟨-, hcode', -⟩
          simp [hcode', voidStatus] at hcode
        · rw [if_pos rfl, if_pos ⟨hvoid, hcode, hpolicy⟩] }
  · next hvalued =>
    rw [isVoid_iff] at hvalued
    obtain ⟨code', hcode, h⟩ := map_eq_ok.mp hstatus
    obtain ⟨rfl, rfl⟩ := Prod.mk.inj h
    obtain ⟨rfl, hbodiless⟩ := valueCode_eq_ok.mp hcode
    exact {
      mediaType := rfl
      range := by
        cases hgiven : rule.statusCode with
        | none => exact show 100 ≤ defaultStatus.toNat ∧ defaultStatus.toNat ≤ 599 by decide
        | some c => exact hrange c hgiven
      bodiless := hbodiless
      void := fun hvoid => absurd hvoid hvalued
      valued := fun _ => ⟨rfl, rfl⟩
      named := hnamed
      noticed := by rw [if_neg Bool.false_ne_true, if_neg fun h => hvalued h.1] }

section Resolved

variable {aliases : AliasTable} {options : ResolveOptions} {r : MethodResolution}
  {block : CommentBlock} {ds : List Directive} {decl : Declarations}

/-- The rule that a method goes by is what its comment asks for. -/
theorem asksFor_of_read (hblock : CommentBlock.read m.name m.doc = .ok block)
    (hds : m.expandDirectives aliases block = .ok ds) (hread : Declarations.read m ds = .ok decl) :
    m.AsksFor aliases (decl.success.getD ⟨{}, ""⟩).value ∧
      ∀ c, (decl.success.getD ⟨{}, ""⟩).value.statusCode = some c →
        100 ≤ c.toNat ∧ c.toNat ≤ 599 := by
  have hexpanded := expandDirectives_select .success rfl hds
  obtain ⟨-, -, hsuccess, -⟩ := Declarations.read_eq_ok.mp hread
  obtain ⟨hnone, hrule⟩ | ⟨d, rule, hone, hrule, hsome⟩ := Declarations.atMostOne_eq_ok.mp hsuccess
  · rw [hnone, List.forall₂_nil_right_iff] at hexpanded
    rw [hrule]
    exact ⟨⟨block, hblock, .inl ⟨hexpanded, rfl⟩⟩, by simp⟩
  · rw [hone] at hexpanded
    obtain ⟨d', rest, ⟨args, hargs, rfl⟩, hrest, hwritten⟩ :=
      List.forall₂_cons_right_iff.mp hexpanded
    rw [List.forall₂_nil_right_iff] at hrest
    obtain ⟨pairs, hpairs, hgiven⟩ := SuccessRule.isGiven_of_read hrule
    rw [hsome]
    have hwritten : block.of .success = [d'] := by rw [hwritten, hrest]
    exact ⟨⟨block, hblock, .inr ⟨d', args, pairs, hwritten, hargs, hpairs, hgiven⟩⟩,
      fun c => hgiven.range⟩

/-- What a method answers if nothing is asked for. -/
theorem answers_unasked (m : Method) (policy : VoidSuccess) :
    ∃ response, m.Answers policy {} response [] := by
  have hmade : m.responseOf policy {} =
      .ok (⟨if m.isVoid then voidStatus else defaultStatus, jsonMediaType, none⟩, false) := by
    unfold responseOf
    cases m.isVoid <;> rfl
  exact ⟨_, answers_of_responseOf (by simp) hmade⟩

/-- All operations of a method have one response, which is what the method answers where its comment
asks for the rule. -/
theorem success_response (h : m.resolve aliases options = .ok r) :
    ∃ rule response, m.AsksFor aliases rule ∧
      m.Answers options.voidSuccess rule response r.notices ∧
      ∀ o ∈ r.operations, o.success = response := by
  obtain ⟨block, hblock, ⟨hnone, rfl⟩ | ⟨-, -, ds, hds, h⟩⟩ := resolve_eq_ok.mp h
  · have hsuccess := CommentBlock.of_eq_nil .success rfl hnone
    obtain ⟨response, hresponse⟩ := m.answers_unasked options.voidSuccess
    exact ⟨{}, response, ⟨block, hblock, .inl ⟨hsuccess, rfl⟩⟩, hresponse, by simp⟩
  · obtain ⟨decl, plan, success, hread, -, -, hresponse, hserved⟩ := resolveDirectives_eq_ok.mp h
    obtain ⟨hasks, hrange⟩ := asksFor_of_read hblock hds hread
    obtain ⟨⟨response, amended⟩, hmade, heq⟩ := map_eq_ok.mp hresponse
    obtain ⟨rfl, hnotices⟩ := Prod.mk.inj heq
    have hanswers := answers_of_responseOf hrange (at_eq_ok.mp hmade)
    rw [hnotices] at hanswers
    exact ⟨_, response, hasks, hanswers, fun o ho => (shared_of_operations hserved o ho).1⟩

end Resolved

/-- Shelves are archived in two ways, with a status that is spelled out and has to be amended. -/
def archiveShelf : Method where
  name := "ArchiveShelf"
  args := []
  returns := [⟨"err", "error", .error⟩]
  doc := ["//kun:op PUT /archive", "// ArchiveShelf archives.", "//kun:success \\",
    "//  statusCode='+000$ok'", "//kun:op DELETE /shelf"]

theorem success_response_of_archiveShelf :
    ∃ r, archiveShelf.resolve ⟨[("ok", "0200")]⟩ ⟨.snakeCase, .amend⟩ = .ok r ∧
      r.operations.map (·.success) = [⟨204, jsonMediaType, none⟩, ⟨204, jsonMediaType, none⟩] ∧
      ∃ rule response, archiveShelf.AsksFor ⟨[("ok", "0200")]⟩ rule ∧
        archiveShelf.Answers .amend rule response r.notices ∧
        ∀ o ∈ r.operations, o.success = response := by
  obtain ⟨r, hr, hsuccess⟩ :
      ∃ r, archiveShelf.resolve ⟨[("ok", "0200")]⟩ ⟨.snakeCase, .amend⟩ = .ok r ∧
      r.operations.map (·.success) = [⟨204, jsonMediaType, none⟩, ⟨204, jsonMediaType, none⟩] :=
    exists_ok_of_map (by decide +kernel)
  exact ⟨r, hr, hsuccess, success_response hr⟩

end Method

end Routespec
