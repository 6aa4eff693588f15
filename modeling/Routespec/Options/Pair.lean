import Routespec.Fault
import Routespec.Text.Identifier
import Routespec.Text.Quoting

/-!
# Option pairs

Options are written `key=value`. A key is an identifier. A value is either text between single
quotes, which has to be followed by white space or nothing, or a run of other characters than
white space that does not start with a quote. Pairs are separated by white space, and groups of
pairs by commas outside quotes.
-/

namespace Routespec

/-- An option as written. -/
structure OptionPair where
  key : String
  value : String
  deriving DecidableEq, Inhabited

namespace OptionPair

/-- The text ends or continues with white space. -/
def endsHere : Text → Bool
  | [] => true
  | c :: _ => isBlank c

/-- The value at the start of a text, and what follows. -/
def scanValue? : Text → Option (Text × Text)
  | [] => none
  | c :: rest =>
    if c = '\'' then
      (Text.cutAt? (· = '\'') rest).filter fun cut => endsHere cut.2
    else if isBlank c then none
    else some (c :: rest.takeWhile (!isBlank ·), rest.dropWhile (!isBlank ·))

/-- The pair at the start of a text, and what follows. -/
def scan? (t : Text) : Option (OptionPair × Text) :=
  match t.spanIdentifier with
  | (c :: key, '=' :: value) =>
    (scanValue? value).map fun (v, rest) => (⟨String.ofList (c :: key), String.ofList v⟩, rest)
  | _ => none

theorem length_of_scanValue? {t v rest : Text} (h : scanValue? t = some (v, rest)) :
    rest.length < t.length := by
  cases t with
  | nil => simp [scanValue?] at h
  | cons c cs =>
    have drop (p : Char → Bool) (xs : Text) : (xs.dropWhile p).length ≤ xs.length :=
      (List.dropWhile_suffix p).length_le
    simp only [scanValue?] at h
    split at h
    · obtain ⟨hcut, -⟩ := Option.filter_eq_some_iff.mp h
      have hd := drop (fun x => !decide (x = '\'')) cs
      simp only [Text.cutAt?] at hcut
      split at hcut
      · simp at hcut
      · next _ heq =>
        simp only [Option.some.injEq, Prod.mk.injEq] at hcut
        rw [heq] at hd
        simp only [List.length_cons] at hd ⊢
        rw [← hcut.2]
        omega
    · split at h
      · simp at h
      · simp only [Option.some.injEq, Prod.mk.injEq] at h
        have hd := drop (fun x => !isBlank x) cs
        rw [← h.2, List.length_cons]
        omega

/-- Reading a pair uses up some of the text. -/
theorem length_of_scan? {t rest : Text} {pair : OptionPair} (h : scan? t = some (pair, rest)) :
    rest.length < t.length := by
  simp only [scan?] at h
  split at h
  · next c key value heq =>
    obtain ⟨⟨v, r⟩, hv, hr⟩ := Option.map_eq_some_iff.mp h
    simp only [Prod.mk.injEq] at hr
    have hlt := length_of_scanValue? hv
    have hlen := congrArg List.length (Text.spanIdentifier_append t)
    rw [heq] at hlen
    simp only [List.length_append, List.length_cons] at hlen
    rw [← hr.2]
    omega
  · simp at h

/-- The pairs of a text. It stops at the first token that is no pair. -/
def readAll (t : Text) : Checked (List OptionPair) :=
  if t.trimLeft = [] then .ok []
  else
    match h : scan? t.trimLeft with
    | some (pair, rest) =>
      have : rest.length < t.length :=
        Nat.lt_of_lt_of_le (length_of_scan? h) (List.dropWhile_suffix isBlank).length_le
      (readAll rest).map (pair :: ·)
    | none => fail (.unmatchedOptions (String.ofList t.trimLeft.trimRight))
  termination_by t.length

/-- The groups of a text, none if it is blank. -/
def readGroups (t : Text) : Checked (List (List OptionPair)) :=
  if t.isBlankText then .ok []
  else
    (t.splitUnquoted ',').mapM fun group =>
      if group.isBlankText then fail (.emptyOptionGroup (String.ofList t.trim))
      else readAll group

end OptionPair

/-- An option that a directive understands: its key, and what its value does to a record. -/
structure OptionKey (σ : Type) where
  word : String
  set : String → σ → Checked σ

/-- A record filled in pair by pair. Each key may be given once; `seen` holds those given. -/
def OptionKey.fill {σ : Type} (keys : List (OptionKey σ)) (seen : List String) (record : σ) :
    List OptionPair → Checked σ
  | [] => .ok record
  | pair :: rest =>
    match keys.find? (·.word = pair.key) with
    | none => fail (.unknownOption pair.key (keys.map (·.word)))
    | some key =>
      if pair.key ∈ seen then fail (.duplicateOption pair.key)
      else (key.set pair.value record).bind (fill keys (pair.key :: seen) · rest)

end Routespec
