import StepOAuth.Command.Session
import StepOAuth.Go.UrlRoundTrip

/-!
# The discovery URL

`disco` parses the provider URL, joins `/.well-known/openid-configuration` to its path with
`path.Join` unless the path holds it already, and fetches the printed URL. `path.Join` ends in
`path.Clean`. So the `.` and `..` elements and the repeated slashes of the provider's path do
not survive, and neither does an escaped slash, since `RawPath` no longer spells the joined
path. The comment in `disco` calls this "the OIDC way". OIDC appends the suffix to the
provider's path as written (`oidcEscapedPath`), and the two differ (`discoURL_not_oidc`).

* `join_wellKnown`: the suffix joined to an empty or rooted path gives a rooted path that ends
  with the suffix;
* `disco_url`: for a provider URL with a scheme and an authority, whose zone is ASCII, the URL
  `disco` prints parses back to the provider's scheme, user, host, query and fragment, with the
  joined path; and the construction applied to that URL prints the same text again;
* `discoURL_path_canonical`: the path it fetches is rooted, a fixed point of `path.Clean`, ends
  with the suffix, and has no empty, `.` or `..` element.
-/

namespace StepOAuth
namespace Command

open Go Url

theorem wellKnown_eq :
    wellKnown =
      '/'.toUInt8 :: (ascii ".well-known" ++ '/'.toUInt8 :: ascii "openid-configuration") :=
  rfl

theorem join_eq (p : Bytes) :
    Path.join [p, wellKnown] = Path.clean (Path.joinStep p wellKnown) := by
  simp [Path.join, Path.joinStep, wellKnown_eq]

/-- **`path.Join` of an empty or rooted path and the discovery suffix** is rooted and ends with
the suffix. -/
theorem join_wellKnown {p : Bytes} (hp : p = [] ∨ p.head? = some '/'.toUInt8) :
    (Path.join [p, wellKnown]).head? = some '/'.toUInt8 ∧
      wellKnown <:+ Path.join [p, wellKnown] := by
  rw [join_eq]
  rcases hp with rfl | hp
  · exact ⟨by decide, by decide⟩
  · have hne : p ≠ [] := by
      rintro rfl
      cases hp
    have hsplit : (p ++ '/'.toUInt8 :: wellKnown).splitOn '/'.toUInt8 =
        p.splitOn '/'.toUInt8 ++ [[], ascii ".well-known", ascii "openid-configuration"] := by
      rw [wellKnown_eq, show p ++ '/'.toUInt8 :: '/'.toUInt8 :: (ascii ".well-known" ++
          '/'.toUInt8 :: ascii "openid-configuration") = ((p ++ '/'.toUInt8 :: []) ++
          '/'.toUInt8 :: ascii ".well-known") ++ '/'.toUInt8 :: ascii "openid-configuration" by
          simp,
        Path.splitOn_append_sep (by decide), Path.splitOn_append_sep (by decide),
        Path.splitOn_append_sep (List.not_mem_nil _)]
      simp
    rw [Path.joinStep, if_neg hne, Path.clean_rooted (by cases p <;> simp_all), hsplit,
      List.foldl_append]
    simp only [List.foldl_cons, List.foldl_nil]
    rw [show ∀ K, Path.cleanStep true (Path.cleanStep true (Path.cleanStep true K [])
        (ascii ".well-known")) (ascii "openid-configuration") =
        ascii "openid-configuration" :: ascii ".well-known" :: K by
      intro K
      simp +decide [Path.cleanStep]]
    refine ⟨rfl, ?_⟩
    simpa [wellKnown_eq] using Path.suffix_intercalate _ (ascii ".well-known")
      (ascii "openid-configuration")

/-- The URL `disco` fetches, with no raw path: what it prints. -/
def discoPrinted (u : URL) : URL := { u with path := Path.join [u.path, wellKnown], rawPath := [] }

section Disco

variable {u : URL}

theorem discoURL_eq_join (hw : ¬ wellKnown <:+: u.path) :
    discoURL u = { u with path := Path.join [u.path, wellKnown] } :=
  if_neg hw

/-- The provider's raw path spells its old path, not the joined one, so `disco` prints the
joined path's default escaping. -/
theorem string_discoURL (hu : Parsed u) (hs : u.scheme ≠ []) (hw : ¬ wellKnown <:+: u.path) :
    (discoURL u).string = (discoPrinted u).string := by
  have hraw : ¬ (u.rawPath ≠ [] ∧ validEncoded u.rawPath .path = true ∧
      unescape .path u.rawPath = .ok (Path.join [u.path, wellKnown])) := by
    rintro ⟨hne, -, hun⟩
    rcases hu.path with h | ⟨-, h⟩
    · exact hne h
    · have hj := (join_wellKnown (hu.path_rooted hs)).2
      rw [← Except.ok.inj (h.symm.trans hun)] at hj
      exact hw hj.isInfix
  have hesc : ({ u with path := Path.join [u.path, wellKnown], rawPath := [] } : URL).escapedPath =
      ({ u with path := Path.join [u.path, wellKnown] } : URL).escapedPath := by
    unfold URL.escapedPath
    rw [if_neg (by simp), if_neg hraw]
  rw [discoURL_eq_join hw]
  exact (string_raw hesc rfl).symm

/-- The URL `disco` prints is parsed and in the domain `Reparses`, for a provider URL with a
scheme and an authority whose zone is ASCII. -/
theorem discoPrinted_reparses (hu : Parsed u) (hs : u.scheme ≠ []) (hop : u.opaqueData = [])
    (homit : u.omitHost = false) (hz : ZoneAscii u.host) :
    Parsed (discoPrinted u) ∧ Reparses (discoPrinted u) := by
  have hhead := (join_wellKnown (hu.path_rooted hs)).1
  have hslash : (discoPrinted u).escapedPath.head? = some '/'.toUInt8 := by
    have hstar : Path.join [u.path, wellKnown] ≠ ascii "*" := fun h => by
      rw [h] at hhead
      cases hhead
    unfold discoPrinted URL.escapedPath
    rw [if_neg (by simp), if_neg hstar,
      head?_escape ⟨by decide, by decide, by decide⟩ (by decide)]
    exact hhead
  exact ⟨{ hu with
      opaqueData_ok := fun h => absurd hop h
      path := .inl rfl
      slash := fun _ => .inr hslash
      omitHost_ok := fun h => absurd (homit ▸ h) (by decide) },
    ⟨fun h => absurd h hs, fun h => absurd h hs, fun h => absurd (homit ▸ h) (by decide), hz⟩⟩

/-- **The discovery URL reads back.** For a provider URL with a scheme and an authority, whose
zone is ASCII and whose path does not hold the suffix, the URL `disco` fetches parses to the
provider's scheme, user, host, query and fragment with the path `path.Join` gives; and the
construction applied to that URL prints the same text. -/
theorem disco_url {provider : Bytes} (hp : parse provider = .ok u) (hs : u.scheme ≠ [])
    (hop : u.opaqueData = []) (homit : u.omitHost = false) (hz : ZoneAscii u.host)
    (hw : ¬ wellKnown <:+: u.path) :
    ∃ v, parse (discoURL u).string = .ok v ∧ v.scheme = u.scheme ∧ v.user = u.user ∧
      v.host = u.host ∧ v.rawQuery = u.rawQuery ∧ v.fragment = u.fragment ∧
      v.path = Path.join [u.path, wellKnown] ∧ (discoURL v).string = (discoURL u).string := by
  have hu := parse_parsed hp
  obtain ⟨hD, hR⟩ := discoPrinted_reparses hu hs hop homit hz
  obtain ⟨r, f, hv, hpath, hfrag⟩ := parse_string hD hR
  rw [string_discoURL hu hs hw]
  refine ⟨_, hv, rfl, rfl, rfl, rfl, rfl, rfl, ?_⟩
  have hsuf : wellKnown <:+: (discoPrinted u).path := (join_wellKnown (hu.path_rooted hs)).2.isInfix
  unfold discoURL
  rw [if_pos hsuf]
  exact string_raw hpath hfrag

/-- **The path `disco` fetches is canonical.** When the provider's path is empty or rooted and
does not hold the suffix, the discovery path is a fixed point of `path.Clean`, ends with the
suffix, and is a `/` followed by elements none of which is empty, `.` or `..`: no provider path
makes the fetch climb above the root. -/
theorem discoURL_path_canonical (hp : u.path = [] ∨ u.path.head? = some '/'.toUInt8)
    (hw : ¬ wellKnown <:+: u.path) :
    Path.clean (discoURL u).path = (discoURL u).path ∧ wellKnown <:+ (discoURL u).path ∧
      ∃ ks : List Bytes, (discoURL u).path = '/'.toUInt8 :: ['/'.toUInt8].intercalate ks ∧
        ∀ e ∈ ks, e ≠ [] ∧ '/'.toUInt8 ∉ e ∧ e ≠ ascii "." ∧ e ≠ ascii ".." := by
  rw [discoURL_eq_join hw]
  obtain ⟨hhead, hsuf⟩ := join_wellKnown hp
  have hidem : Path.clean (Path.join [u.path, wellKnown]) = Path.join [u.path, wellKnown] := by
    rw [join_eq, Path.clean_clean]
  obtain ⟨ks, hks, hall⟩ := Path.clean_rooted_shape hhead
  exact ⟨hidem, hsuf, ks, hidem ▸ hks, hall⟩

end Disco

/-- `discoURL_path_canonical` at a provider path with a `..`. -/
theorem discoURL_path_canonical_dotdot :
    let u : URL := { scheme := "https", host := "idp.example", path := "/a/../b" }
    (u.path = [] ∨ u.path.head? = some '/'.toUInt8) ∧ ¬ wellKnown <:+: u.path ∧
      Path.clean (discoURL u).path = (discoURL u).path ∧ wellKnown <:+ (discoURL u).path ∧
      ∃ ks : List Bytes, (discoURL u).path = '/'.toUInt8 :: ['/'.toUInt8].intercalate ks ∧
        ∀ e ∈ ks, e ≠ [] ∧ '/'.toUInt8 ∉ e ∧ e ≠ ascii "." ∧ e ≠ ascii ".." := by
  intro u
  have hp : u.path = [] ∨ u.path.head? = some '/'.toUInt8 := .inr rfl
  have hw : ¬ wellKnown <:+: u.path := by decide
  exact ⟨hp, hw, discoURL_path_canonical hp hw⟩

/-- `disco_url` at a provider with a path. -/
theorem disco_url_sample :
    let u : URL := { scheme := "https", host := "idp.example", path := "/tenant" }
    parse "https://idp.example/tenant" = .ok u ∧ u.scheme ≠ [] ∧ u.opaqueData = [] ∧
      u.omitHost = false ∧ ZoneAscii u.host ∧ ¬ wellKnown <:+: u.path ∧
      ∃ v, parse (discoURL u).string = .ok v ∧ v.scheme = u.scheme ∧ v.user = u.user ∧
        v.host = u.host ∧ v.rawQuery = u.rawQuery ∧ v.fragment = u.fragment ∧
        v.path = Path.join [u.path, wellKnown] ∧ (discoURL v).string = (discoURL u).string := by
  intro u
  have hp : parse "https://idp.example/tenant" = .ok u := by decide
  have hs : u.scheme ≠ [] := by decide
  have hop : u.opaqueData = [] := rfl
  have homit : u.omitHost = false := rfl
  have hz : ZoneAscii u.host := by decide
  have hw : ¬ wellKnown <:+: u.path := by decide
  exact ⟨hp, hs, hop, homit, hz, hw, disco_url hp hs hop homit hz hw⟩

/-- The discovery path "the OIDC way", as the comment in `disco` names it: the provider's
escaped path with one terminating `/` removed, followed by the suffix. -/
def oidcEscapedPath (u : URL) : Bytes :=
  (if u.escapedPath.getLast? = some '/'.toUInt8 then u.escapedPath.dropLast else u.escapedPath) ++
    wellKnown

/-- `disco` does not build the URL the OIDC way. `path.Join` cleans the provider's path and
`RawPath` no longer spells it. A `..` element is resolved away, and an escaped slash is fetched
as a plain one. -/
theorem discoURL_not_oidc :
    (parse "https://idp.example/a/../b").map (fun u => ((discoURL u).escapedPath, oidcEscapedPath u)) =
      .ok (ascii "/b/.well-known/openid-configuration",
        ascii "/a/../b/.well-known/openid-configuration") ∧
    (parse "https://idp.example/a%2Fb").map (fun u => ((discoURL u).escapedPath, oidcEscapedPath u)) =
      .ok (ascii "/a/b/.well-known/openid-configuration",
        ascii "/a%2Fb/.well-known/openid-configuration") := by
  decide

end Command
end StepOAuth
