import Rollout.Files.System
import Rollout.Secrets.Cache
import Rollout.Text.Json

/-!
# Where secrets are kept

Either in a file of the configuration directory, sealed if the program that seals files is there, or
with a helper program that keeps them in its own way. Both work on any machine.
-/

namespace Rollout

variable {σ : Type}

/-- What the sealing program says of a file: one field that is true or false. -/
def isSealedStatus (status : Bytes) : Bool :=
  match JsonValue.parse? status with
  | some (.object fields) =>
    match fields.filter (·.1 == "encrypted".toList) with
    | [(_, .bool b)] => b
    | _ => false
  | some (.list [.bool b]) => b
  | _ => false

namespace FileStore

def fileName : String := "secrets.yaml"

def sealer : String := "sops"

def path (dir : String) : String := joinPath dir fileName

/-- Is the file sealed? Without the sealing program it counts as open. -/
def isSealed (sys : System σ) (s : σ) (path : String) : σ × Bool :=
  match sys.runHelper s sealer ["filestatus", path] none with
  | (s, .ok status) => (s, isSealedStatus status)
  | (s, .error _) => (s, false)

/-- The open content of the file. -/
def content (sys : System σ) (s : σ) (path : String) : σ × Except Error Bytes :=
  match isSealed sys s path with
  | (s, true) =>
    match sys.runHelper s sealer ["decrypt", path] none with
    | (s, .ok content) => (s, .ok content)
    | (s, .error fault) => (s, .error (.secrets s!"sops decryption failed: {fault.message}"))
  | (s, false) =>
    match sys.read s path with
    | .ok content => (s, .ok content)
    | .error fault => (s, .error (.secrets s!"read {path}: {fault.message}"))

/-- Reads a bundle from bytes that have to be text; `source` says where they are from. -/
def readBundle (source : String) (b : Bytes) : Except Error Bundle :=
  match b.text? with
  | none => .error (.secrets s!"{source} is not UTF-8: invalid utf-8 sequence")
  | some _ => Bundle.parse b

def get (sys : System σ) (dir : String) (s : σ) : σ × Except Error (Option Bundle) :=
  let path := path dir
  if sys.exists? s path then
    match content sys s path with
    | (s, .ok b) => (s, (readBundle path b).map some)
    | (s, .error e) => (s, .error e)
  else (s, .ok none)

def put (sys : System σ) (dir : String) (s : σ) (bundle : Bundle) : σ × Except Error Unit :=
  let path := path dir
  let plain := Bytes.ofText bundle.yaml
  let (s, result) := sys.runHelper s sealer ["encrypt", "--filename-override", path] (some plain)
  let content := match result with
    | .ok sealed => sealed
    | .error _ => plain
  match sys.write s path content with
  | (s, .ok ()) => (s, .ok ())
  | (s, .error fault) => (s, .error (.secrets s!"write {path}: {fault.message}"))

end FileStore

/-- Secrets in a file of a directory. -/
def fileStore (sys : System σ) (dir : String) : Store σ where
  get := FileStore.get sys dir
  put := FileStore.put sys dir

/-- Secrets with a helper program, under the name of the cluster. -/
def helperStore (sys : System σ) (program cluster : String) : Store σ where
  get s :=
    match sys.runHelper s program ["secrets", "get", cluster] none with
    | (s, .error fault) => (s, .error (.secrets fault.message))
    | (s, .ok output) =>
      match output.text? with
      | none =>
        (s, .error (.secrets "secrets provider output is not UTF-8: invalid utf-8 sequence"))
      | some text =>
        if (Text.trim text).isEmpty then (s, .ok none) else (s, (Bundle.parse output).map some)
  put s bundle :=
    match sys.runHelper s program ["secrets", "put", cluster] (some (.ofText bundle.yaml)) with
    | (s, .error fault) => (s, .error (.secrets fault.message))
    | (s, .ok _) => (s, .ok ())

end Rollout
