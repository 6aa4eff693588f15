import Routespec.Proofs.Checked
import Routespec.Proofs.Encoding
import Routespec.Proofs.Runs

/-!
# Specifications read back

Specifications are written without fractions, the only numbers in them being status codes. So what a
run has written is read back as the specification it has returned, as long as its shapes are not
nested more deeply than the reader goes.
-/

namespace Routespec

open Json (Value strings unlessEmpty)
open Json.Value (isPlain arePlain arePlain_map havePlain havePlain_append)
open Session (attempt_bind_ok attempt_log)

@[simp]
theorem isPlain_strings (xs : List String) : (strings xs).isPlain = true :=
  arePlain_map (fun _ => rfl) xs

@[simp]
theorem havePlain_unlessEmpty_string (name s : String) (empty : Bool) :
    havePlain (unlessEmpty name (.string s) empty) = true := by
  cases empty <;> rfl

@[simp]
theorem havePlain_unlessEmpty_strings (name : String) (xs : List String) (empty : Bool) :
    havePlain (unlessEmpty name (strings xs) empty) = true := by
  cases empty <;> simp [unlessEmpty, havePlain]

@[simp]
theorem havePlain_optionalString (name : String) (s? : Option String) :
    havePlain (optionalString name s?) = true := by
  cases s? <;> rfl

theorem Argument.isPlain_toJson (a : Argument) : a.toJson.isPlain = true := by
  simp [toJson, isPlain, havePlain, Shape.isPlain_toJson]

theorem Parameter.isPlain_toJson (p : Parameter) : p.toJson.isPlain = true := by
  simp [toJson, isPlain, havePlain, havePlain_append]

theorem Binding.isPlain_toJson (b : Binding) : b.toJson.isPlain = true := by
  simp [toJson, isPlain, havePlain, Argument.isPlain_toJson, arePlain_map Parameter.isPlain_toJson]

theorem RequestBody.isPlain_toJson (b : RequestBody) : b.toJson.isPlain = true := by
  cases b <;> rfl

theorem Request.isPlain_toJson (r : Request) : r.toJson.isPlain = true := by
  simp [toJson, isPlain, havePlain, RequestBody.isPlain_toJson, arePlain_map Binding.isPlain_toJson]

theorem Response.isPlain_toJson (r : Response) : r.toJson.isPlain = true := by
  have hcode : r.statusCode.toNat < Nat.pow 2 64 :=
    Nat.lt_trans r.statusCode.toNat_lt (by decide)
  simp [toJson, isPlain, havePlain, Json.Number.isWhole, hcode]

theorem Operation.isPlain_toJson (o : Operation) : o.toJson.isPlain = true := by
  simp [toJson, isPlain, havePlain, havePlain_append,
    Request.isPlain_toJson, Response.isPlain_toJson]

theorem SpecMeta.isPlain_toJson (m : SpecMeta) : m.toJson.isPlain = true := by
  simp [toJson, isPlain, havePlain, havePlain_append]

theorem Specification.isPlain_toJson (s : Specification) : s.toJson.isPlain = true := by
  simp [toJson, isPlain, havePlain, SpecMeta.isPlain_toJson, arePlain_map Operation.isPlain_toJson]

/-- Interfaces and specifications are what their JSON form decodes to. After a run the file holds
the text of the specification that the run has returned. Whoever reads that text faithfully has the
specification back; the reader is faithful to it as long as it goes deep enough for its shapes. -/
theorem encoded_values_decode :
    (∀ i : Interface, Interface.ofJson? i.toJson = some i) ∧
    (∀ spec : Specification, Specification.ofJson? spec.toJson = some spec) ∧
    ∀ (s s' : Session) (input output : String) (config : Config) (spec : Specification),
      s.attempt (Generation.run input output config) = (.ok spec, s') →
      ∃ text, s'.tree.read (FilePath.join output Generation.specFile) = .ok text ∧
        text = spec.toJson.pretty ∧
        (∀ read? : String → Option Value, read? text = some spec.toJson →
          (read? text).bind Specification.ofJson? = some spec) ∧
        (spec.toJson.depth ≤ Json.maxDepth → Json.read? text = some spec.toJson) := by
  refine ⟨Interface.ofJson?_toJson, Specification.ofJson?_toJson, ?_⟩
  intro s s' input output config spec h
  refine ⟨_, Generation.read_specification_of_attempt h, rfl, fun read? hread => ?_,
    Json.read?_pretty spec.isPlain_toJson⟩
  rw [hread]
  exact Specification.ofJson?_toJson spec

/-- A method with shapes inside shapes. Some of what may be left out is there and some is not. -/
def addBook : Method where
  name := "AddBook"
  args := [⟨"ctx", "Context", .context⟩, ⟨"shelf", "string", .scalar⟩,
    ⟨"sort", "Sort", .composite [⟨"Keys", "[]string", .scalarSeq, some "in=query name=by"⟩]⟩,
    ⟨"book", "Book", .composite [⟨"Title", "string", .scalar, none⟩,
      ⟨"Index", "Index", .composite [⟨"Pages", "map[string]int", .map, some "-"⟩], none⟩]⟩]
  returns := [⟨"id", "string", .scalar⟩, ⟨"err", "error", .error⟩]
  doc := ["AddBook puts a book on a shelf.", "//kun:op PUT /shelves/{shelf}",
    "//kun:param shelf descr='where it \"stands\"'", "//kun:body book",
    "//kun:success statusCode=201 body=id"]

def bookInterface : Interface := ⟨"Shelf", ["Shelf keeps books."], [addBook]⟩

def bookShelf : Session where
  tree := ⟨[(FileAddress.working.child "in.json", .file bookInterface.toJson.pretty)]⟩

def bookRun : Except Failure Specification × Session :=
  bookShelf.attempt (Generation.run "in.json" "out" {})

theorem describes_bookShelf : Generation.Describes bookShelf.tree "in.json" bookInterface := by
  refine ⟨bookInterface.toJson.pretty, rfl, ?_⟩
  rw [Json.read?_pretty (by decide +kernel) (by decide +kernel), Option.bind_some]
  exact bookInterface.ofJson?_toJson

theorem bookRun_evaluated : bookRun.1.toOption.map (fun spec =>
    decide (spec.about.description = "Shelf keeps books." ∧
      spec.operations.map (fun o => o.request.bindings.map (·.argument)) =
        [addBook.args.drop 1] ∧
      spec.operations.map (fun o => o.request.params.map fun p => (p.field, p.description)) =
        [[(none, "where it \"stands\""), (some "Keys", ""), (none, "")]] ∧
      spec.operations.map (·.success) = [⟨201, jsonMediaType, some "id"⟩] ∧
      spec.toJson.depth ≤ Json.maxDepth)) = some true := by
  -- the text is long, so it is not read step by step
  have hread (log : List LogEntry) : Session.attempt { bookShelf with log }
      (Generation.readInterface "in.json") = (.ok bookInterface, { bookShelf with log }) :=
    Generation.attempt_readInterface_of_describes describes_bookShelf
  rw [bookRun, Generation.run, attempt_bind_ok (attempt_log _ _), attempt_bind_ok (hread _)]
  decide +kernel

theorem encoded_values_decode_of_bookShelf :
    Interface.ofJson? bookInterface.toJson = some bookInterface ∧
    ∃ spec text, bookRun.1 = .ok spec ∧ spec.about.description = "Shelf keeps books." ∧
      spec.operations.map (fun o => o.request.bindings.map (·.argument)) =
        [addBook.args.drop 1] ∧
      spec.operations.map (fun o => o.request.params.map fun p => (p.field, p.description)) =
        [[(none, "where it \"stands\""), (some "Keys", ""), (none, "")]] ∧
      spec.operations.map (·.success) = [⟨201, jsonMediaType, some "id"⟩] ∧
      bookRun.2.tree.read (FilePath.join "out" Generation.specFile) = .ok text ∧
      (Json.read? text).bind Specification.ofJson? = some spec := by
  obtain ⟨spec, hspec, hvalues⟩ := exists_ok_of_map bookRun_evaluated
  obtain ⟨hdescription, hargs, hparams, hsuccess, hdepth⟩ := of_decide_eq_true hvalues
  obtain ⟨text, hread, -, hback, hfaithful⟩ :=
    encoded_values_decode.2.2 _ bookRun.2 _ _ _ _ (Session.eq_mk_of_fst hspec)
  exact ⟨encoded_values_decode.1 _, spec, text, hspec, hdescription, hargs, hparams, hsuccess,
    hread, hback _ (hfaithful hdepth)⟩

end Routespec
