/-
# The local path of a request

`HTTPCacheManager::getLocalPathName` appends the path of the URL to the cache directory, creates
the directory of the content, and returns the whole path.  Nothing keeps the path of the URL from
going up: a path stays inside the cache directory when it never climbs above it, or comes back
through its name.
-/
import CatraLibraries.WebTools.ParseURL
import CatraLibraries.Lib.Paths

namespace CatraLibraries

open Memory CString Paths WebUtility

namespace HTTPCacheManager

/-- `SCK_MAXHOSTNAMELENGTH`. -/
def maxHostNameLength : Nat := 128 + 1

/-- The errors that the methods return. -/
inductive HTTPCacheManagerError
  | parseURLFailed
  | wrongURI
  | createDirectoryFailed
  | isFileExistingFailed
  | noMoreHTTPRequestAvailable (ulHTTPRequestsQueueSize : Nat)
  | saveHTTPRequestKeyFailed
  deriving DecidableEq, Repr

/-- `_bCacheDirectory`: `init` takes the slashes at the end of its argument away. -/
def bCacheDirectory (pCacheDirectory : CStr) : List UInt8 :=
  pCacheDirectory.bytes.rdropWhile (· = 47)

/-- `strrchr (bURI, '/')`. -/
def lastSlash (bURI : List UInt8) : Option Nat :=
  (bURI.reverse.idxOf? 47).map (bURI.length - 1 - ·)

/-- `getLocalPathName`; `createDirectory` says whether the directory is there afterwards. -/
def getLocalPathName (bCacheDirectory : List UInt8) (createDirectory : List UInt8 → Bool)
    (pbHTTPRequest : CStr) : Except Fault (Except HTTPCacheManagerError (List UInt8)) := do
  match ← parseURL pbHTTPRequest maxHostNameLength with
  | .error _ => return .error .parseURLFailed
  | .ok url =>
    let bURI := url.bRelativePathWithoutParameters
    match lastSlash bURI with
    | none => return .error .wrongURI
    | some pLastSlash =>
      let pbHTTPLocalPathName := bCacheDirectory ++ bURI.take pLastSlash
      if createDirectory pbHTTPLocalPathName then
        return .ok (pbHTTPLocalPathName ++ bURI.drop pLastSlash)
      else return .error .createDirectoryFailed

/-- A URI that climbs comes back through the names of the cache directory that it left. -/
def StaysInside (cwd : List Name) (pCacheDirectory : CStr) (bURI : List UInt8) : Prop :=
  if pCacheDirectory.bytes = [] then cwd <+: (climb (components bURI)).2
  else
    (resolve cwd pCacheDirectory.bytes).drop
        ((resolve cwd pCacheDirectory.bytes).length - (climb (components bURI)).1) <+:
      (climb (components bURI)).2

variable {cwd : List Name} {pCacheDirectory pbHTTPRequest : CStr} {dir path : List UInt8}
  {createDirectory : List UInt8 → Bool}

/-- **The path that is returned** is the cache directory with the path of the URL. -/
theorem getLocalPathName_ok (h : getLocalPathName dir createDirectory pbHTTPRequest = .ok (.ok path)) :
    ∃ url, partsOf pbHTTPRequest.bytes maxHostNameLength = .ok url ∧
      path = dir ++ url.bRelativePathWithoutParameters := by
  unfold getLocalPathName at h
  rw [parseURL_eq, ok_bind] at h
  cases hparts : partsOf pbHTTPRequest.bytes maxHostNameLength with
  | error e =>
    rw [hparts] at h
    cases h
  | ok url =>
    rw [hparts] at h
    dsimp only at h
    refine ⟨url, rfl, ?_⟩
    split at h
    · cases h
    · split at h
      · cases h
        rw [List.append_assoc, List.take_append_drop]
      · cases h

/-- A slash at the beginning does not climb. -/
theorem climb_root (path : List UInt8) : climb (components (47 :: path)) = climb (components path) := by
  have hcut := components_append [] path
  rw [List.nil_append] at hcut
  rw [hcut]
  rfl

/-- A path behind the cache directory, as `init` keeps it. -/
theorem resolve_bCacheDirectory (hne : pCacheDirectory.bytes ≠ []) (path : List UInt8) :
    resolve cwd (bCacheDirectory pCacheDirectory ++ 47 :: path) =
      walk (resolve cwd pCacheDirectory.bytes) (components path) := by
  unfold bCacheDirectory
  by_cases hstrip : pCacheDirectory.bytes.rdropWhile (· = 47) = []
  · rw [hstrip, List.nil_append, resolve_root, resolve_slashes hne hstrip]
  · rw [resolve_append hstrip, resolve_rdropWhile _ hstrip]

/-- **Inside the cache directory.**  The path of an accepted request lies in the directory, or is
the directory itself, exactly when its URI comes back where it climbs above it. -/
theorem getLocalPathName_inside_iff (cwd : List Name) (pCacheDirectory pbHTTPRequest : CStr)
    (createDirectory : List UInt8 → Bool) (path : List UInt8) (url : ParsedURL)
    (h : getLocalPathName (bCacheDirectory pCacheDirectory) createDirectory pbHTTPRequest =
      .ok (.ok path))
    (hurl : parseURL pbHTTPRequest maxHostNameLength = .ok (.ok url)) :
    resolve cwd pCacheDirectory.bytes <+: resolve cwd path ↔
      StaysInside cwd pCacheDirectory url.bRelativePathWithoutParameters := by
  obtain ⟨url', hparts, rfl⟩ := getLocalPathName_ok h
  rw [parseURL_eq, hparts] at hurl
  cases hurl
  obtain ⟨pToken, huri, -⟩ := path_of_partsOf pbHTTPRequest.nulFree hparts
  rw [huri]
  unfold StaysInside
  rw [climb_root]
  by_cases hempty : pCacheDirectory.bytes = []
  · rw [if_pos hempty]
    have hdir : bCacheDirectory pCacheDirectory = [] := by
      unfold bCacheDirectory
      rw [hempty]
      exact List.rdropWhile_nil _
    have hcwd : resolve cwd [] = cwd := rfl
    rw [hdir, List.nil_append, resolve_root, walk_eq, hempty, hcwd, List.take_nil, List.nil_append]
  · rw [if_neg hempty, resolve_bCacheDirectory hempty]
    exact prefix_walk_iff _ _

/-- The request "http://h/a" with the cache directory "/c". -/
theorem getLocalPathName_inside_plain :
    resolve [] [47, 99] <+: resolve [] [47, 99, 47, 97] ↔
      StaysInside [] ⟨[47, 99], by decide⟩ [47, 97] :=
  getLocalPathName_inside_iff [] ⟨[47, 99], by decide⟩
    ⟨[104, 116, 116, 112, 58, 47, 47, 104, 47, 97], by decide⟩ (fun _ => true) [47, 99, 47, 97]
    ⟨[104], -1, [47, 97], []⟩ (by decide +kernel) (by decide +kernel)

/-- The request "http://h/../x" leaves the cache directory "/c". -/
theorem not_inside_climbing :
    ∃ path, getLocalPathName (bCacheDirectory ⟨[47, 99], by decide⟩) (fun _ => true)
        ⟨[104, 116, 116, 112, 58, 47, 47, 104, 47, 46, 46, 47, 120], by decide⟩ = .ok (.ok path) ∧
      ¬resolve [] [47, 99] <+: resolve [] path :=
  ⟨[47, 99, 47, 46, 46, 47, 120], by decide +kernel, by decide +kernel⟩

end HTTPCacheManager

end CatraLibraries
