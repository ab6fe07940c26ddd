import ServiceScaffold.OpenApi.Shape

/-!
# The parts of an OpenAPI document

What each part of an OpenAPI document has to look like. A part that is used in several places may be
given by a reference there; the part is settled then, before either form of it is looked for.
-/

namespace ServiceScaffold.OpenApi

namespace Shape

/-! ## Members and records -/

/-- A member that has to be there. -/
def needed (name : String) (shape : Shape) : Text × Bool × Shape := (name, true, shape)

/-- A member that may be left out. -/
def allowed (name : String) (shape : Shape) : Text × Bool × Shape := (name, false, shape)

/-- A member that may be left out or be nothing. -/
def nullable (name : String) (shape : Shape) : Text × Bool × Shape := (name, false, .optional shape)

/-- A record that may be extended by other members, which are kept. -/
def extensible (members : List (Text × Bool × Shape)) : Shape := .record .kept members

/-- A record whose other members are passed over; a list of its values does as well. -/
def plain (members : List (Text × Bool × Shape)) : Shape :=
  .either (.record .ignored members) (.sequence members)

/-- A reference to a part. -/
def reference : Shape :=
  .record .ignored [needed "$ref" .text, nullable "summary" .text, nullable "description" .text]

/-- A part that may be given by a reference instead. -/
def orReference (shape : Shape) : Shape := .settled (.either reference shape)

/-- Parts that may be given by references, by their names. -/
def tableOf (shape : Shape) : Shape := .table (orReference shape)

/-- Parts that may be given by references, one after another. -/
def listOf (shape : Shape) : Shape := .list (orReference shape)

/-! ## Metadata -/

/-- Whom to ask. -/
def contact : Shape :=
  extensible [nullable "name" .text, nullable "url" .address, nullable "email" .text]

/-- What one may do with the service. -/
def license : Shape :=
  extensible [needed "name" .text, nullable "identifier" .text, nullable "url" .address]

/-- What the document is about. -/
def info : Shape :=
  extensible [
    needed "title" .text, needed "version" .text, nullable "summary" .text,
    nullable "description" .text, nullable "termsOfService" .address,
    nullable "contact" contact, nullable "license" license]

/-- Where to read on. -/
def externalDocs : Shape := extensible [nullable "description" .text, needed "url" .address]

/-- A word by which operations are grouped. -/
def tag : Shape := extensible [needed "name" .text, nullable "description" .text]

/-- A variable in the address of a server. -/
def serverVariable : Shape :=
  extensible [
    allowed "enum" (.list .text), needed "default" .text, nullable "description" .text]

/-- Where the service is offered. -/
def server : Shape :=
  extensible [
    needed "url" .text, nullable "description" .text,
    allowed "variables" (.table serverVariable)]

/-! ## Schemas -/

/-- The types of values. -/
def valueType : Shape :=
  .word ["boolean", "integer", "number", "string", "array", "object", "null"]

/-- A schema that may be given by a reference, or a truth value that admits all or nothing. -/
def flagOrSchema : Shape := .either .flag (orReference (.part .schema))

/-- How the alternatives of a schema are told apart. -/
def discriminator : Shape :=
  plain [needed "propertyName" .text, nullable "mapping" (.table .text)]

/-- A schema. -/
def schema : Shape :=
  extensible
    (["allOf", "anyOf", "oneOf", "prefixItems"].map
        (fun name => allowed name (listOf (.part .schema)))
      ++ ["items", "additionalProperties"].map (fun name => nullable name flagOrSchema)
      ++ ["multipleOf", "maximum", "exclusiveMaximum", "minimum", "exclusiveMinimum"].map
        (fun name => nullable name .number)
      ++ ["maxLength", "minLength", "maxItems", "minItems", "maxProperties", "minProperties"].map
        (fun name => nullable name .count)
      ++ ["pattern", "format", "title", "description"].map (fun name => nullable name .text)
      ++ ["uniqueItems", "deprecated", "readOnly", "writeOnly"].map
        (fun name => nullable name .flag)
      ++ ["const", "default", "example"].map (fun name => allowed name .anything)
      ++ ["enum", "examples"].map (fun name => allowed name (.list .anything))
      ++ [allowed "properties" (tableOf (.part .schema)),
        nullable "type" (.either valueType (.list valueType)),
        allowed "required" (.list .text), nullable "discriminator" discriminator])

/-! ## Parameters and contents -/

/-- An example of a value. -/
def exampleOf : Shape :=
  extensible [
    nullable "summary" .text, nullable "description" .text, allowed "value" .anything,
    nullable "externalValue" .text]

/-- How a value is written into an address. -/
def style : Shape :=
  .word ["matrix", "label", "form", "simple", "spaceDelimited", "pipeDelimited", "deepObject"]

/-- What parameters and headers have in common. -/
def valueMembers : List (Text × Bool × Shape) :=
  ["required", "deprecated", "allowEmptyValue", "explode", "allowReserved"].map
      (fun name => nullable name .flag)
    ++ [nullable "description" .text, nullable "style" style,
      nullable "schema" (orReference (.part .schema)), allowed "example" .anything,
      nullable "content" (.table (.part .mediaType))]

/-- A parameter of an operation. -/
def parameter : Shape :=
  extensible
    (valueMembers ++ [
      needed "name" .text, needed "in" (.word ["path", "query", "header", "cookie"]),
      allowed "examples" (tableOf exampleOf)])

/-- A header of an answer. -/
def header : Shape :=
  extensible (valueMembers ++ [nullable "examples" (tableOf exampleOf)])

/-- How a member of a form is written. -/
def encoding : Shape :=
  plain [
    nullable "contentType" .text, allowed "headers" (tableOf (.part .header)),
    nullable "style" .text, nullable "explode" .flag, nullable "allowReserved" .flag]

/-- A content in one format. -/
def mediaType : Shape :=
  .record .ignored [
    nullable "schema" (orReference (.part .schema)), allowed "encoding" (.table encoding)]

/-- What an operation is sent. -/
def requestBody : Shape :=
  plain [
    nullable "description" .text, needed "content" (.table (.part .mediaType)),
    nullable "required" .flag]

/-- An operation that follows on an answer; it is told by its address or by its name. -/
def link : Shape :=
  let members := [
    allowed "parameters" (.table .text), nullable "description" .text, nullable "server" server]
  .either (.record .ignored (needed "operationRef" .text :: members))
    (.record .ignored (needed "operationId" .text :: members))

/-- An answer of an operation. -/
def response : Shape :=
  extensible [
    nullable "description" .text, allowed "headers" (tableOf (.part .header)),
    allowed "content" (.table (.part .mediaType)), allowed "links" (tableOf link)]

/-! ## Security -/

/-- What is needed to be let in. -/
def requirement : Shape := .table (.list .text)

/-- One way to be granted access, with the addresses that it needs. -/
def flow (addresses : List String) : Shape :=
  plain (addresses.map (fun name => needed name .address) ++ [
    nullable "refreshUrl" .address, needed "scopes" (.table .text)])

/-- The ways to be granted access. -/
def flows : Shape :=
  plain [
    nullable "implicit" (flow ["authorizationUrl"]), nullable "password" (flow ["tokenUrl"]),
    nullable "clientCredentials" (flow ["tokenUrl"]),
    nullable "authorizationCode" (flow ["authorizationUrl", "tokenUrl"])]

/-- How a client shows who it is. -/
def securityScheme : Shape :=
  let scheme (name : String) (members : List (Text × Bool × Shape)) : Text × Shape :=
    (name, plain (nullable "description" .text :: members))
  .variant "type" [
    scheme "apiKey" [needed "name" .text, needed "in" .text],
    scheme "http" [needed "scheme" .text, nullable "bearerFormat" .text],
    scheme "oauth2" [needed "flows" flows],
    scheme "openIdConnect" [needed "openIdConnectUrl" .text],
    scheme "mutualTLS" []]

/-! ## Operations -/

/-- The operations that a client offers in return, by the addresses they are offered under. -/
def callback : Shape := .table (.settled (.part .pathItem))

/-- An operation. -/
def operation : Shape :=
  extensible [
    allowed "tags" (.list .text), nullable "summary" .text, nullable "description" .text,
    nullable "externalDocs" externalDocs, nullable "operationId" .text,
    allowed "parameters" (listOf parameter), nullable "requestBody" (orReference requestBody),
    nullable "responses" (tableOf response),
    allowed "callbacks" (.table callback), nullable "deprecated" .flag,
    allowed "security" (.list requirement), allowed "servers" (.list server)]

/-- The operations under one path. -/
def pathItem : Shape :=
  extensible
    ([nullable "$ref" .text, nullable "summary" .text, nullable "description" .text,
      allowed "servers" (.list server), allowed "parameters" (listOf parameter)]
      ++ ["get", "put", "post", "delete", "options", "head", "patch", "trace"].map
        fun method => nullable method operation)

/-! ## Documents -/

/-- Parts that are used in several places. -/
def components : Shape :=
  extensible [
    allowed "schemas" (tableOf (.part .schema)), allowed "responses" (tableOf response),
    allowed "parameters" (tableOf parameter), allowed "examples" (tableOf exampleOf),
    allowed "requestBodies" (tableOf requestBody), allowed "headers" (tableOf (.part .header)),
    allowed "securitySchemes" (tableOf securityScheme), allowed "links" (tableOf link),
    allowed "callbacks" (tableOf callback), allowed "pathItems" (tableOf (.part .pathItem))]

/-- A document. -/
def document : Shape :=
  extensible [
    needed "openapi" .text, needed "info" info, allowed "servers" (.list server),
    nullable "paths" (.table (.part .pathItem)), nullable "components" components,
    allowed "security" (.list requirement), allowed "tags" (.list tag),
    allowed "webhooks" (.table (.part .pathItem)), nullable "externalDocs" externalDocs]

end Shape

/-- The shapes of the parts that may hold parts of their own kind. -/
def Part.shape : Part → Shape
  | .schema => Shape.schema
  | .header => Shape.header
  | .mediaType => Shape.mediaType
  | .pathItem => Shape.pathItem

end ServiceScaffold.OpenApi
