import LanguageClient.Session.Id
import LanguageClient.Proofs.Uuid

/-! # Session ids are canonical.

However a UUID is spelled, the id that is made of it is the same, since it is the UUID
that is kept and not the spelling. The text of an id is the canonical one of its UUID, and
gives the id again. -/

namespace LanguageClient.SessionId

variable {s : Bytes} {id : SessionId}

/-- The octets of an id are those of the UUID that is read. -/
theorem ofOctets_eq_ok_iff : ofOctets s = .ok id ↔ Uuid.parse s = .ok id.uuid := by
  cases s with
  | nil => exact ⟨nofun, nofun⟩
  | cons b s =>
      cases id with
      | mk uuid =>
          unfold ofOctets
          cases hparse : Uuid.parse (b :: s) <;> simp

/-- **Exactly what denotes a UUID is accepted.** -/
theorem exists_ofOctets_iff : (∃ id, ofOctets s = .ok id) ↔ ∃ v, Uuid.Denotes s v := by
  simp only [ofOctets_eq_ok_iff, Uuid.denotes_iff]
  exact ⟨fun ⟨id, h⟩ => ⟨_, id.uuid, h, rfl⟩, fun ⟨_, u, h, _⟩ => ⟨⟨u⟩, h⟩⟩

/-- The text of an accepted id gives the id again. -/
theorem parse_text (h : ofOctets s = .ok id) : parse id.text = .ok id :=
  ofOctets_eq_ok_iff.mpr (Uuid.parse_text (Uuid.length_octets (ofOctets_eq_ok_iff.mp h)))

/-- Accepted ids differ if their texts do, and only then. -/
theorem text_inj {t : Bytes} {id' : SessionId} (h : ofOctets s = .ok id) (h' : ofOctets t = .ok id') :
    id'.text = id.text ↔ id' = id := by
  refine ⟨fun htext => ?_, congrArg text⟩
  have hread := parse_text h'
  rw [htext, parse_text h] at hread
  exact (Except.ok.inj hread).symm

/-- **Session ids are canonical.** An accepted text denotes one number of 128 bits. The text
of its id has 36 characters and is the canonical one of that number, and it gives the id
again. Another accepted text gives the same id, and an id with the same text, if and only if
it denotes the same number. -/
theorem ofOctets_canonical (h : ofOctets s = .ok id) :
    ∃ v < 2 ^ 128, (∀ w, Uuid.Denotes s w ↔ w = v) ∧
      id.text.length = 36 ∧ Uuid.Canonical v id.text ∧
      parse id.text = .ok id ∧
      ∀ {t : Bytes} {id' : SessionId}, ofOctets t = .ok id' →
        (id' = id ↔ Uuid.Denotes t v) ∧ (id'.text = id.text ↔ Uuid.Denotes t v) := by
  have hu := ofOctets_eq_ok_iff.mp h
  have hlen := Uuid.length_octets hu
  -- Two texts have the same id exactly if they denote the same number.
  have hsame {t : Bytes} {id' : SessionId} (h' : ofOctets t = .ok id') :
      id' = id ↔ Uuid.Denotes t id.uuid.number := by
    have hu' := ofOctets_eq_ok_iff.mp h'
    rw [Uuid.denotes_iff]
    constructor
    · rintro rfl
      exact ⟨_, hu', rfl⟩
    · rintro ⟨u, ht, hv⟩
      obtain rfl : id'.uuid = u := Except.ok.inj (hu'.symm.trans ht)
      exact congrArg SessionId.mk
        (Uuid.eq_of_number_eq ((Uuid.length_octets hu').trans hlen.symm) hv)
  refine ⟨id.uuid.number, ?_, fun w => ?_, Uuid.length_text hlen, Uuid.canonical_text hlen,
    parse_text h, fun h' => ⟨hsame h', (text_inj h h').trans (hsame h')⟩⟩
  · have hlt := Uuid.octetsNumber_lt id.uuid.octets
    rwa [hlen] at hlt
  · rw [Uuid.denotes_iff]
    constructor
    · rintro ⟨u, ht, rfl⟩
      rw [Except.ok.inj (hu.symm.trans ht)]
    · rintro rfl
      exact ⟨_, hu, rfl⟩

/-- A UUID in capitals between braces. -/
def braced : Bytes := utf8 "\x7b6F9619FF-8B86-D011-B42D-00C04FC964FF\x7d"

/-- The same behind the name of its scheme, in letters of either case. -/
def urn : Bytes := utf8 "URN:uuid:6f9619FF-8b86-D011-b42d-00c04fc964ff"

theorem ofOctets_braced : ofOctets braced = .ok ⟨⟨[0x6F, 0x96, 0x19, 0xFF, 0x8B, 0x86, 0xD0, 0x11,
    0xB4, 0x2D, 0x00, 0xC0, 0x4F, 0xC9, 0x64, 0xFF]⟩⟩ :=
  ofOctets_eq_ok_iff.mpr (by decide +kernel)

/-- Both spellings denote one number, and the id is written in the canonical way. -/
theorem braced_canonical : ∃ id v, ofOctets braced = .ok id ∧
    id.text = "6f9619ff-8b86-d011-b42d-00c04fc964ff" ∧ parse id.text = .ok id ∧
    Uuid.Denotes braced v ∧ Uuid.Denotes urn v := by
  obtain ⟨v, -, hv, -, -, hread, hsame⟩ := ofOctets_canonical ofOctets_braced
  have hurn : ofOctets urn = ofOctets braced :=
    (ofOctets_eq_ok_iff.mpr (by decide +kernel)).trans ofOctets_braced.symm
  exact ⟨_, v, ofOctets_braced, by decide +kernel, hread, (hv v).mpr rfl,
    (hsame (hurn.trans ofOctets_braced)).1.mp rfl⟩

end LanguageClient.SessionId
