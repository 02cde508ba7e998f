import Mathlib.Data.Nat.Notation
import Mathlib.Tactic.Common

/-!
# Finding pluggable-transport binaries

`bridges/src/discovery.rs`: a search of `$PATH` and a few common directories,
and the message for a binary that is not there.
-/

namespace Anonet.Bridges

/-- What the search sees of the machine it runs on. -/
structure FileSystem where
  pathDirs : List String
  isExecutable : String → Bool
  pathExists : String → Bool

/-- A machine without any transport binaries. -/
def FileSystem.empty : FileSystem := ⟨[], fun _ => false, fun _ => false⟩

/-- `Path::join` with a relative name. -/
def joinPath (dir name : String) : String :=
  if dir = "" ∨ dir.endsWith "/" then dir ++ name else dir ++ "/" ++ name

/-- Binary names to search for, in preference order. -/
def candidateBinaryNames (protocol : String) : List String :=
  if protocol = "obfs4" then ["obfs4proxy", "lyrebird"]
  else if protocol = "snowflake" then ["snowflake-client"]
  else if protocol = "webtunnel" then ["webtunnel-client"]
  else []

def extraSearchDirs : List String :=
  ["/usr/bin", "/usr/local/bin", "/usr/sbin", "/usr/lib/obfs4proxy", "/opt/homebrew/bin",
    "/snap/bin"]

/-- The first match, by name and then by directory. -/
def locateTransportBinary (fs : FileSystem) (protocol : String) : Option String :=
  let dirs := fs.pathDirs ++ extraSearchDirs
  ((candidateBinaryNames protocol).flatMap fun name => dirs.map fun dir => joinPath dir name).find?
    fs.isExecutable

/-- The package believed to provide the binary, if known. -/
def packageName (protocol : String) : Option String :=
  if protocol = "obfs4" then some "obfs4proxy"
  else if protocol = "snowflake" then some "snowflake-client"
  else none

def managers : List (String × String) :=
  [("apt-get", "sudo apt-get install -y"), ("dnf", "sudo dnf install -y"),
    ("pacman", "sudo pacman -S --noconfirm"), ("zypper", "sudo zypper install -y"),
    ("apk", "sudo apk add")]

/-- An install command for the package manager that is present. -/
def suggestInstallCommand (fs : FileSystem) (pkg : String) : Option String :=
  (managers.find? fun (bin, _) => fs.pathDirs.any fun dir => fs.pathExists (joinPath dir bin)).map
    fun (_, cmd) => s!"{cmd} {pkg}"

def missingTransportMessage (fs : FileSystem) (protocol : String) : String :=
  match packageName protocol with
  | some pkg =>
    match suggestInstallCommand fs pkg with
    | some cmd =>
      s!"no '{protocol}' pluggable-transport binary found; install it with: {cmd}"
    | none =>
      s!"no '{protocol}' pluggable-transport binary found; install the '{pkg}' package for " ++
        s!"your distro, or pass --pt {protocol}=<path>"
  | none =>
    s!"no '{protocol}' pluggable-transport binary found, and anonet doesn't know which " ++
      s!"package provides it; pass --pt {protocol}=<path> to point at it manually"

end Anonet.Bridges
