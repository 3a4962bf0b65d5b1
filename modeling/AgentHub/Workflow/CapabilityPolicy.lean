import AgentHub.Security.PathRules
/-!
# The capability policy

The existing resources that a privilege request may name, and the actions it may ask for on each.
-/

namespace AgentHub.Security

open Lib Workspace

def dependencyNames : List Text := texts [
  "cargo.toml", "cargo.lock", "composer.json", "composer.lock", "go.mod", "go.sum", "gemfile", "gemfile.lock",
  "package.json", "package-lock.json", "npm-shrinkwrap.json", "pnpm-lock.yaml", "poetry.lock", "pyproject.toml",
  "requirements.txt", "pipfile", "pipfile.lock", "yarn.lock"]

def configSuffixes : List Text := texts [
  ".cfg", ".conf", ".config", ".csproj", ".ini", ".json", ".props", ".targets", ".toml", ".xml", ".yaml", ".yml"]

/-- `_parts`. -/
def capabilityParts (path : String) : Option (List Text) :=
  let text := path.toList
  if text = [] ∨ backslash ∈ text then none
  else if PurePath.isAbsolute text ∨ (PurePath.parts text).any isRelativeSegment then none
  else some ((PurePath.parts text).map casefold)

def endsWithOneOf (suffixes : List Text) (s : Text) : Bool := suffixes.any (·.isSuffixOf s)

def isDependencyManifest (name : Text) : Bool :=
  dependencyNames.contains name ||
    ("requirements".toList.isPrefixOf name && endsWithOneOf (texts [".txt", ".in"]) name) ||
    endsWithOneOf (texts [".csproj", ".fsproj", ".vbproj"]) name

def isProjectConfig (name : Text) : Bool :=
  endsWithOneOf configSuffixes name ||
    (texts ["editorconfig", "makefile", "dockerfile", "tox.ini", "setup.cfg"]).contains name

/-- `eligible_actions`. -/
def eligibleActions (H : Host) (path : String) : List PrivilegeAction :=
  if isRestrictedRelativePath H path then []
  else
    match capabilityParts path with
    | none => []
    | some parts =>
      let name := parts.getLastD []
      (if isDependencyManifest name then [.editDependencyManifest] else []) ++
        if isProjectConfig name then [.editProjectConfig] else []

/-- `is_eligible_resource`. -/
def isEligibleResource (H : Host) (action : PrivilegeAction) (path : String) : Bool :=
  (eligibleActions H path).contains action

end AgentHub.Security
