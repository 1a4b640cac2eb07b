import Kcore.Text

/-!
# Paths of volume-mirror sessions

The paths that the functions which move a local disk derive from the name of a VM, with the checks of the names.
-/

namespace Kcore.Mirror

def validateLabel (field raw : String) : Except String String :=
  let name := trim raw
  if name = "" || 80 < name.utf8ByteSize then .error (field ++ " must be 1–80 characters")
  else if !name.toList.all fun c => c.isAlphanum || c = '-' || c = '_' then
    .error (field ++ " must be letters, digits, '_' or '-'")
  else .ok name

def validateVmName (name : String) : Except String String := validateLabel "vm_name" name

inductive SafeSegmentError where
  | empty
  | tooLong (actual max : Nat)
  | containsNul
  | containsSeparator
  | dotOrDotDot
  | leadingDash

def maxSafeSegmentLen : Nat := 200

def validateSafeSegment (name : String) : Except SafeSegmentError String :=
  let trimmed := trim name
  if trimmed = "" then .error .empty
  else if maxSafeSegmentLen < trimmed.utf8ByteSize then .error (.tooLong trimmed.utf8ByteSize maxSafeSegmentLen)
  else if trimmed.toList.contains (Char.ofNat 0) then .error .containsNul
  else if trimmed.toList.contains '/' || trimmed.toList.contains '\\' then .error .containsSeparator
  else if trimmed = "." || trimmed = ".." then .error .dotOrDotDot
  else if trimmed.toList.head? = some '-' then .error .leadingDash
  else .ok trimmed

/-- What `validate_storage_name` says of a name that is not a segment. -/
def SafeSegmentError.text (what : String) : SafeSegmentError → String
  | .empty => what ++ " is required"
  | .tooLong actual max => what ++ " is too long (" ++ toString actual ++ " bytes, max " ++ toString max ++ ")"
  | .containsNul => what ++ " must not contain NUL bytes"
  | .containsSeparator => what ++ " must not contain path separators"
  | .dotOrDotDot => what ++ " must not be '.' or '..'"
  | .leadingDash => what ++ " must not start with '-'"

def storageChars : List Char → Bool
  | [] => false
  | c :: rest => c.isAlphanum && rest.all fun c => c.isAlphanum || c = '_' || c = '.' || c = '+' || c = '-'

def validateStorageName (name what : String) : Except String String :=
  match validateSafeSegment (trim name) with
  | .error e => .error (e.text what)
  | .ok name =>
    if storageChars name.toList then .ok name
    else .error (what ++ " must be letters, digits, '_', '.', '+', or '-'")

def mapperPath (vm : String) : Except String String := return "/dev/mapper/kcore-vm-" ++ (← validateVmName vm)

def lvName (vm : String) : Except String String := return "kcore-" ++ (← validateVmName vm)

def lvmBacking (vg vm : String) : Except String String := do
  let vg ← validateStorageName vg "volume group"
  return "/dev/" ++ vg ++ "/" ++ (← lvName vm)

def zfsDataset (pool vm : String) : Except String String := do
  let pool ← validateStorageName pool "zfs pool"
  return pool ++ "/" ++ (← lvName vm)

end Kcore.Mirror
