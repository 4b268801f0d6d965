import PageCompiler.Error.Report
import PageCompiler.Json.Value

/-! # Reports as JSON

A report as the JSON object that other tools read. A member that a report does not have is left out.
-/

namespace PageCompiler

open Json (Value)

/-- The member with the given name, if there is a value. -/
def memberIfAny (name : String) (value? : Option Value) : List (Text × Value) :=
  (value?.map fun value => (name.toList, value)).toList

def ReportDetails.toJson : ReportDetails → Value
  | notFound name searched => .ofMembers [
      ("type".toList, .ofText "notFound".toList),
      ("module".toList, .ofText name),
      ("searched".toList, .array (searched.map Value.ofText))]
  | cycle chain => .ofMembers [
      ("type".toList, .ofText "cycle".toList),
      ("chain".toList, .array (chain.map Value.ofText))]
  | duplicate name existing conflicting => .ofMembers [
      ("type".toList, .ofText "duplicate".toList),
      ("module".toList, .ofText name),
      ("existing".toList, .ofText existing),
      ("conflicting".toList, .ofText conflicting)]

def Report.toJson (report : Report) : Value :=
  .ofMembers (
    [("phase".toList, .ofText report.phase), ("kind".toList, .ofText report.kind)]
      ++ memberIfAny "path" (report.path?.map Value.ofText)
      ++ memberIfAny "line" (report.line?.map Value.ofNat)
      ++ memberIfAny "column" (report.column?.map Value.ofNat)
      ++ [("message".toList, .ofText report.message),
        ("exitCode".toList, .ofNat report.exitCode)]
      ++ memberIfAny "details" (report.details?.map ReportDetails.toJson))

end PageCompiler
