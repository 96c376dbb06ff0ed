import TypedClient.Discriminator

/-!
# Notices

What is worth noting while a client is generated. Warnings are shown always; the rest is shown in
the detailed form only, which names the level and the part that a notice comes from.
-/
namespace TypedClient

inductive Notice where
  | validatorFailed
  | validated (errors warnings : Nat)
  | unknownTarget (target : UnknownTarget)
  | compiled (verb : String) (route : Scalar) (method : String)
  | generated (models : Nat) (api : String)
  deriving DecidableEq, Repr

namespace Notice

def isWarning : Notice → Bool
  | .unknownTarget _ => true
  | _ => false

def part : Notice → String
  | .validatorFailed | .validated _ _ => "client_codegen.api_codegen.validation"
  | .unknownTarget _ => "client_codegen.api_codegen.discriminator"
  | .compiled _ _ _ | .generated _ _ => "client_codegen.api_codegen.assembler"

def text : Notice → String
  | .validatorFailed => "OpenAPI validator failed"
  | .validated errors warnings =>
    s!"Validation finished with {errors} error(s), {warnings} warning(s)"
  | .unknownTarget target =>
    "Discriminator mapping " ++ target.literal.quoted ++ " points to unknown schema " ++
      Text.quoted target.schema
  | .compiled verb route method =>
    "Compiled " ++ verb.toUpper ++ " " ++ route.display ++ " as " ++ method
  | .generated models api => s!"Generated {models} model(s) for " ++ api

/-- Whether all that goes into the text of a notice has a text. -/
def hasText : Notice → Bool
  | .unknownTarget target => target.literal.hasText
  | .compiled _ route _ => route.hasText
  | _ => true

def detailedText (n : Notice) : String :=
  (if n.isWarning then "WARNING " else "DEBUG ") ++ n.part ++ ": " ++ n.text

/-- The line that is shown for a notice, if one is. -/
def line? (detailed : Bool) (n : Notice) : Option String :=
  if detailed then some n.detailedText else if n.isWarning then some n.text else none

end Notice

end TypedClient
