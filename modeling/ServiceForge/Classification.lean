/-
This file tells the kind of an operation from its method and the shape of its
path: an item, a view or an endpoint of an item, a collection, or any other.
-/

import ServiceForge.Kind
import ServiceForge.Naming
import ServiceForge.OpenApi.Spec.Basic

namespace ServiceForge

open ServiceForge.OpenApi (Method Operation PlacedOperation Spec)
open ServiceForge.Text

/-- Why an operation has no kind. -/
inductive SkipReason where
  | unsupported (method : Method)
  | pathShape (path : String) (method : Method)
deriving DecidableEq, Repr

namespace SkipReason

/-- The text that explains why an operation is skipped. -/
def message : SkipReason → String
  | unsupported method => "method '" ++ method.name ++ "' is not classified"
  | pathShape path method =>
    "no operation kind for '" ++ method.name ++ "' on '" ++ path ++ "'"

end SkipReason

/-- The kind of an operation, or why it has none. -/
inductive Classification where
  | known (kind : Kind)
  | skipped (reason : SkipReason)
deriving DecidableEq, Repr

namespace Classification

/-- The kind of a classified operation. -/
def kind? : Classification → Option Kind
  | known kind => some kind
  | skipped _ => none

/-! ### Shapes of paths -/

/-- What the end of a path says about an operation. -/
inductive Shape where
  | item
  | detail
  | action
  | collection
  | plain (last : String)
deriving DecidableEq, Repr

/-- The shape of a path without slashes at its end. -/
def Shape.ofPath (path : String) (hasChild : Bool) : Shape :=
  if endsWith "\x7d" path then item
  else if endsWith "/detail" path then detail
  else if endsWith "/action" path then action
  else if hasChild then collection
  else plain ((split '/' path).getLast?.getD "")

/-- The kind of a method on a path of the given shape. -/
def kindOn (shape : Shape) (method : Method) : Option Kind :=
  match shape, method with
  | _, .patch => some .update
  | .item, .get => some .showItem
  | .item, .put => some .update
  | .item, .delete => some .delete
  | .detail, .get => some .listDetailed
  | .action, .post => some .action
  | .collection, .get => some .list
  | .collection, .post => some .create
  | .collection, .put => some .replace
  | .collection, .delete => some .deleteAll
  | .plain _, .get => some .get
  | .plain _, .post => some .create
  | .plain _, .delete => some .delete
  | .plain last, .put => if last.isEmpty then none else some (.ofName (Naming.moduleName last))
  | _, _ => none

/-- Classifies an operation by its path and method. -/
def ofPath (path : String) (method : Method) (hasChild : Bool) : Classification :=
  let path := trimEnd (· = '/') path
  match method with
  | .head | .options | .trace => skipped (.unsupported method)
  | _ =>
    match kindOn (.ofPath path hasChild) method with
    | some kind => known kind
    | none => skipped (.pathShape path method)

/-! ### Binary payloads -/

/-- Whether an operation succeeds with nothing but binary content. -/
def isDownload (operation : Operation) : Bool :=
  operation.success?.any fun (_, response) =>
    !response.content.isEmpty && response.content.keys.all (· = OpenApi.MediaType.binary)

/-- Whether an operation takes binary content. -/
def isUpload (operation : Operation) : Bool :=
  operation.requestContent.any (OrderedMap.contains · OpenApi.MediaType.binary)

/-- Reads and writes of binary payloads have kinds of their own. -/
def refine (kind : Kind) (operation : Operation) : Kind :=
  match kind with
  | .get | .showItem => if isDownload operation then .download else kind
  | .replace | .update | .other _ => if isUpload operation then .upload else kind
  | _ => kind

/-- Classifies an operation of a document. -/
def ofOperation (spec : Spec) (placed : PlacedOperation) : Classification :=
  match ofPath placed.path placed.method (spec.hasChildItem placed.path) with
  | known kind =>
    if placed.method = .put || placed.method = .get then known (refine kind placed.operation)
    else known kind
  | skipped reason => skipped reason

end Classification

end ServiceForge
