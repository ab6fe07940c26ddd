import ServiceScaffold.OpenApi.Document
import ServiceScaffold.Proofs.Run.Step

/-! # Documents that are refused

A document is refused if it cannot be read, or if what is read is no document in its format; then the
failure has what the parser says of the text. A remote document is not looked at, so it is never refused.
-/

namespace ServiceScaffold.OpenApi

variable {wording : ParserWording} {document : Path} {tree : FileTree} {world after : World}
variable {content : Text} {failure : Failure}

/-- Is the text a document in the format that the name of its file asks for? -/
def IsDocument (document : Path) (content : Text) : Prop :=
  ∃ datum summary, Datum.read? (formatOf document) content = some datum ∧ summary? datum = some summary

/-- Why a document is refused. -/
inductive Refused (wording : ParserWording) (tree : FileTree) (document : Path) : Failure → Prop
  | unreadable {fault : Fault} (hread : tree.read document = .error fault) :
    Refused wording tree document (.readDocument document fault)
  | invalid {content : Text} (hread : tree.read document = .ok content)
    (hcontent : ¬ IsDocument document content) :
    Refused wording tree document (.parseDocument (formatOf document) document
      (wording.document (formatOf document) content))

theorem not_isDocument_iff :
    ¬ IsDocument document content ↔ (Datum.read? (formatOf document) content).bind summary? = none := by
  rw [Option.eq_none_iff_forall_ne_some]
  simp only [IsDocument, ne_eq, Option.bind_eq_some_iff, exists_comm (α := Datum), not_exists]

theorem preflight_of_unreadable {fault : Fault} (hlocal : isRemote document = false)
    (hread : world.tree.read document = .error fault) :
    preflight wording document world = .error (.readDocument document fault) world := by
  rw [preflight, hlocal, if_neg Bool.false_ne_true]
  exact Run.bind_of_error (Run.look_of_error _ hread) _

theorem preflight_of_read (hlocal : isRemote document = false)
    (hread : world.tree.read document = .ok content) :
    preflight wording document world =
      match (Datum.read? (formatOf document) content).bind summary? with
      | none => .error (.parseDocument (formatOf document) document
          (wording.document (formatOf document) content)) world
      | some summary =>
        .ok (some summary) { world with logged := world.logged ++ [.documentLoaded summary] } := by
  rw [preflight, hlocal, if_neg Bool.false_ne_true]
  refine (Run.bind_of_ok (Run.look_eq_ok_iff.mpr ⟨hread, rfl⟩) _).trans ?_
  cases (Datum.read? (formatOf document) content).bind summary? with
  | none => rfl
  | some summary => rfl

theorem preflight_of_remote (hremote : isRemote document = true) :
    preflight wording document world =
      .ok none { world with logged := world.logged ++ [.documentRemote document] } := by
  rw [preflight, hremote, if_pos rfl]
  rfl

/-- The check fails exactly for a local document that is refused, and changes nothing then. -/
theorem preflight_eq_error_iff :
    preflight wording document world = .error failure after ↔
      after = world ∧ isRemote document = false ∧ Refused wording world.tree document failure := by
  constructor
  · intro herror
    cases hremote : isRemote document with
    | true =>
        rw [preflight_of_remote hremote] at herror
        cases herror
    | false =>
        cases hread : world.tree.read document with
        | error fault =>
            cases (preflight_of_unreadable hremote hread).symm.trans herror
            exact ⟨rfl, rfl, .unreadable hread⟩
        | ok content =>
            rw [preflight_of_read hremote hread] at herror
            split at herror
            next hnone =>
              cases herror
              exact ⟨rfl, rfl, .invalid hread (not_isDocument_iff.mpr hnone)⟩
            next => cases herror
  · rintro ⟨rfl, hlocal, hrefused⟩
    cases hrefused with
    | unreadable hread => exact preflight_of_unreadable hlocal hread
    | invalid hread hcontent => rw [preflight_of_read hlocal hread, not_isDocument_iff.mp hcontent]

end ServiceScaffold.OpenApi
