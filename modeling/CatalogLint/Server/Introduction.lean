import CatalogLint.Server.Shape

/-!
# What a client tells of itself

With its first request a client tells what it can do. All of it must have the shape that the
protocol lays down, though the server looks at little of it.

* `Introduction`: what the server looks at.
* `Introduction.shape`: the shape of a first request's content.
* `Introduction.ofJson?`: what such content tells.
-/

namespace CatalogLint.Server

namespace Shape

/-- A field that may be missing. -/
def may (name : String) (shape : Shape) : String × Bool × Shape := (name, false, shape)

/-- A field that must be there. -/
def must (name : String) (shape : Shape) : String × Bool × Shape := (name, true, shape)

/-- Fields that may be missing and hold anything. -/
def free (names : List String) : List (String × Bool × Shape) := names.map (may · anything)

/-- A record of fields that may be missing and hold anything. -/
def loose (names : List String) : Shape := record (free names)

/-- A feature that may be registered later. -/
def feature (names : List String) (more : List (String × Bool × Shape) := []) : Shape :=
  record (free ("dynamicRegistration" :: names) ++ more)

/-- A set of kinds. -/
def kinds (most : Nat) : Shape := record [may "valueSet" (list (kind most))]

/-- A set of kinds, which must be told. -/
def tags (most : Nat) : Shape := record [must "valueSet" (list (kind most))]

/-- A list of texts. -/
def texts : Shape := list anything

/-- The properties that can be added to a value later. -/
def properties : Shape := record [must "properties" texts]

/-- A list of formats for documentation. -/
def formats : Shape := list (word ["plaintext", "markdown"])

/-- What a client can do with a whole workspace. -/
def workspace : Shape :=
  let refresh := loose ["refreshSupport"]
  record (free ["applyEdit", "workspaceFolders", "configuration"] ++ [
    may "workspaceEdit" (record (free ["documentChanges", "normalizesLineEndings"] ++ [
      may "resourceOperations" (list (word ["create", "rename", "delete"])),
      may "failureHandling"
        (word ["abort", "transactional", "textOnlyTransactional", "undo"]),
      may "changeAnnotationSupport" (loose ["groupsOnLabel"])])),
    may "didChangeConfiguration" (feature []),
    may "didChangeWatchedFiles" (feature ["relativePatternSupport"]),
    may "symbol" (feature [] [may "symbolKind" (kinds 26), may "tagSupport" (tags 1),
      may "resolveSupport" properties]),
    may "executeCommand" (feature []),
    may "semanticTokens" refresh, may "codeLens" refresh,
    may "fileOperations"
      (feature ["didCreate", "willCreate", "didRename", "willRename", "didDelete", "willDelete"]),
    may "inlineValue" refresh, may "inlayHint" refresh, may "diagnostics" refresh])

/-- What a client can do to complete a text. -/
def completion : Shape :=
  feature ["contextSupport"] [
    may "completionItem" (record (free ["snippetSupport", "commitCharactersSupport",
        "deprecatedSupport", "preselectSupport", "insertReplaceSupport", "labelDetailsSupport"] ++ [
      may "documentationFormat" formats, may "tagSupport" (tags 1),
      may "resolveSupport" properties, may "insertTextModeSupport" (tags 2)])),
    may "completionItemKind" (kinds 25), may "insertTextMode" (kind 2),
    may "completionList" (record [may "itemDefaults" texts])]

/-- What a client can do with one document. -/
def textDocument : Shape :=
  let linked := feature ["linkSupport"]
  record [
    may "synchronization" (feature ["willSave", "willSaveWaitUntil", "didSave"]),
    may "completion" completion,
    may "hover" (feature [] [may "contentFormat" formats]),
    may "signatureHelp" (feature ["contextSupport"] [
      may "signatureInformation" (record [may "documentationFormat" formats,
        may "parameterInformation" (loose ["labelOffsetSupport"]),
        may "activeParameterSupport" anything])]),
    may "declaration" linked, may "definition" linked, may "typeDefinition" linked,
    may "implementation" linked,
    may "references" (feature []), may "documentHighlight" (feature []),
    may "documentSymbol" (feature ["hierarchicalDocumentSymbolSupport", "labelSupport"] [
      may "symbolKind" (kinds 26), may "tagSupport" (tags 1)]),
    may "codeAction" (feature ["isPreferredSupport", "disabledSupport", "dataSupport",
        "honorsChangeAnnotations"] [
      may "codeActionLiteralSupport" (record [
        must "codeActionKind" (record [must "valueSet" texts])]),
      may "resolveSupport" properties]),
    may "codeLens" (feature []), may "documentLink" (feature ["tooltipSupport"]),
    may "colorProvider" (feature []), may "formatting" (feature []),
    may "rangeFormatting" (feature []), may "onTypeFormatting" (feature []),
    may "rename" (feature ["prepareSupport", "honorsChangeAnnotations"] [
      may "prepareSupportDefaultBehavior" (kind 1)]),
    may "foldingRange" (feature ["lineFoldingOnly"] [
      may "rangeLimit" (within 0 2147483647),
      may "foldingRangeKind" (record [may "valueSet" texts]),
      may "foldingRange" (loose ["collapsedText"])]),
    may "selectionRange" (feature []),
    may "publishDiagnostics" (record (free ["relatedInformation", "versionSupport",
      "codeDescriptionSupport", "dataSupport"] ++ [may "tagSupport" (tags 2)])),
    may "callHierarchy" (feature []),
    may "semanticTokens" (feature ["overlappingTokenSupport", "multilineTokenSupport",
        "serverCancelSupport", "augmentsSyntaxTokens"] [
      must "requests" (loose ["range", "full"]), must "tokenTypes" texts,
      must "tokenModifiers" texts, must "formats" (list (word ["relative"]))]),
    may "linkedEditingRange" (feature []), may "moniker" (feature []),
    may "typeHierarchy" (feature []), may "inlineValue" (feature []),
    may "inlayHint" (feature [] [may "resolveSupport" properties]),
    may "diagnostic" (feature ["relatedDocumentSupport"])]

/-- What a client can do with its window. -/
def window : Shape :=
  record [may "workDoneProgress" anything,
    may "showMessage" (record [
      may "messageActionItem" (loose ["additionalPropertiesSupport"])]),
    may "showDocument" (record [must "support" anything])]

/-- What a client can do in general. -/
def general : Shape :=
  record [
    may "staleRequestSupport" (record [must "cancel" anything,
      must "retryOnContentModified" texts]),
    may "regularExpressions" (record [must "engine" anything, may "version" anything]),
    may "markdown" (record [must "parser" anything, may "version" anything,
      may "allowedTags" texts]),
    may "positionEncodings" texts]

/-- All that a client can do. -/
def capabilities : Shape :=
  record [may "workspace" workspace, may "textDocument" textDocument,
    may "notebookDocument" (record [
      must "synchronization" (feature ["executionSummarySupport"])]),
    may "window" window, may "general" general, may "experimental" anything]

end Shape

/-- What the server looks at: the encodings that are offered, and whether the client tells if it
asks before documents are saved, and waits. -/
structure Introduction where
  encodings : Option (List String) := none
  tellsWillSave : Bool := false
  tellsWillSaveWaitUntil : Bool := false

namespace Introduction

/-- The shape of a first request's content. -/
def shape : Shape :=
  .record (Shape.free ["locale", "rootPath", "rootUri", "initializationOptions",
      "workDoneToken"] ++ [
    Shape.must "capabilities" Shape.capabilities,
    Shape.may "processId" .whole,
    Shape.may "clientInfo"
      (.record [Shape.must "name" .anything, Shape.may "version" .anything]),
    Shape.may "trace" (.word ["off", "messages", "verbose"]),
    Shape.may "workspaceFolders"
      (.list (.record [Shape.must "uri" .anything, Shape.must "name" .anything]))])

/-- The value at the end of a path of fields, unless it is null. -/
def told? (path : List String) (v : Json) : Option Json :=
  match path.foldl (fun v name => v.bind (·.field? name)) (some v) with
  | some .null => none
  | v => v

/-- What the content of a first request tells, if it has the right shape. -/
def ofJson? (params : Json) : Option Introduction :=
  let saving (name : String) : Bool :=
    (told? ["capabilities", "textDocument", "synchronization", name] params).isSome
  if shape.fits params then
    some
      { encodings :=
          (told? ["capabilities", "general", "positionEncodings"] params).map fun v =>
            ((itemsOf? v).getD []).filterMap Json.text?
        tellsWillSave := saving "willSave"
        tellsWillSaveWaitUntil := saving "willSaveWaitUntil" }
  else none

end Introduction

end CatalogLint.Server
