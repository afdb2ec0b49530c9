import FrameIndex.Proofs.Packet.Rebinding

/-!
# Callers' views and cached views

A header is looked at through a view of the caller or through the cached one. The first is unbound
and bound to the range that is looked up; the second is found or made under its key, and then taken
through the same steps. Two things could keep the cached view from showing the same: a view under
the key that is for another header, and a refusal. But a raw view stays with the pack and protocol
that it was made for (`Packet.Stemming.agrees_acquired`), and after any requests the records of a
packet end within its frame (`Packet.fits_run`), so that no range is refused.

So a header is there for callers exactly if it is there in the cache, and both views hold the same
(`Packet.own_and_cached_views_agree`).
-/

namespace FrameIndex

namespace Packet

/-! ## Packets fit their frames -/

section

variable {V : Type} {p q : Packet V}

theorem Fits.of_sameFrame (h : p.Fits) (hsame : SameFrame p q) : q.Fits := by
  have hindex : q.index = p.index := congrArg Descriptor.index hsame.head_eq
  refine ⟨hindex ▸ h.bounded, ?_⟩
  rw [hindex, hsame.data_eq]
  exact h.captureLength_le

theorem fits_of_unbound {layout : Layout} (h : p.chain.head = .unbound layout) : p.Fits := by
  have hindex : p.index = (Descriptor.unbound layout).index := congrArg Descriptor.index h
  refine ⟨hindex ▸ Descriptor.bounded_index _, ?_⟩
  rw [hindex]
  cases layout <;> exact Nat.zero_le _

variable [Bindable V]

theorem fits_unbind (p : Packet V) : p.unbind.Fits := fits_of_unbound rfl

theorem fits_bind (p : Packet V) (data descriptor : Bytes) : (p.bind data descriptor).1.Fits := by
  cases hresult : (p.bind data descriptor).2 with
  | error e =>
    rw [fst_bind_of_error hresult]
    exact p.fits_unbind
  | ok _ =>
    obtain ⟨d, -, hlong, hq⟩ := bind_eq_ok_iff.1 (Prod.ext rfl hresult)
    rw [show (p.bind data descriptor).1 = _ from hq]
    exact ⟨d.bounded_index, hlong⟩

theorem Fits.serve (h : p.Fits) (r : Request) : (p.serve r).1.Fits := by
  cases r with
  | bind data descriptor => exact p.fits_bind data descriptor
  | unbind => exact p.fits_unbind
  | attach d => exact h.of_sameFrame (p.sameFrame_attach d)
  | attachEncoded layout bs =>
    simp only [Packet.serve, attachEncoded]
    cases Descriptor.ofBytes layout bs with
    | ok d => exact h.of_sameFrame (p.sameFrame_attach d)
    | error refusal => exact h
  | header id depth =>
    show (p.cachedHeader id depth).1.Fits
    rw [cachedHeader_eq_fetch]
    exact h.of_sameFrame (p.sameFrame_fetch _ _ _ _ _)
  | demandHeader id depth =>
    show (p.demandHeader id depth).1.Fits
    rw [fst_demandHeader, cachedHeader_eq_fetch]
    exact h.of_sameFrame (p.sameFrame_fetch _ _ _ _ _)
  | extension parent ext depth =>
    show (p.cachedExtension parent ext depth).1.Fits
    rw [cachedExtension_eq_fetch]
    exact h.of_sameFrame (p.sameFrame_fetch _ _ _ _ _)
  | releaseHeader id => exact h.of_sameFrame (p.sameFrame_release _)
  | releaseExtension parent ext => exact h.of_sameFrame (p.sameFrame_release _)
  | clone => exact h.of_sameFrame p.sameFrame_clone

theorem fits_run (setup : PacketSetup) (factory : ViewFactory V) (requests : List Request) :
    ((unbound setup factory).run requests).1.Fits :=
  run_of_serve (P := Fits) (fun _ r h => h.serve r) (fits_of_unbound rfl) requests

end

/-! ## Both views of a header -/

section

variable {p : Packet RawView} {key : CacheKey} {id : HeaderId} {depth : Nat}
  {options : Placement → Option OptionRun} {target : Option Placement}

theorem Stemming.agrees_acquired (h : p.Stemming) (hraw : p.cache.factory = .raw)
    {make : RawView} (hmake : ViewFactory.raw.Makes key make) (fits : RawView → Bool) :
    (p.cache.acquire key fits make).2.id.agrees make.id = true := by
  have hstems : ViewFactory.raw.Stems key (p.cache.acquire key fits make).2 := by
    rw [← hraw] at hmake ⊢
    exact h.acquired hmake
  rw [HeaderId.agrees, beq_iff_eq]
  exact ViewFactory.sorted_raw.kind_eq_of_stems hstems (.made hmake)

/-- What becomes of the view of a caller and of the cached view of the same header. `target` is
where the header lies, if it is `there`. -/
structure Alike (key : CacheKey) (id : HeaderId) (depth : Nat) (target : Option Placement)
    (there : Bool) (own : RawView × Except PacketError Bool)
    (demanded : RawView × Except PacketError Unit)
    (cached : Packet RawView × Except PacketError (Option RawView)) : Prop where
  own_eq : own.2 = .ok there
  demanded_eq : demanded =
    (own.1, if there then .ok () else .error (.headerNotFound id.name depth))
  placement_eq : own.1.placement = target
  cached_eq : ∃ found, cached.2 = .ok found ∧ found.isSome = there
  /-- The cached view may carry other classes. It stays in the cache, in use. -/
  same : ∀ v, cached.2 = .ok (some v) → v.id.agrees id = true ∧ own.1 = { v with id } ∧
    cached.1.cache.slot? key = some ⟨v, true⟩

theorem alike_of_within (h : p.Stemming) (hraw : p.cache.factory = .raw) {own : RawView}
    (hmake : ViewFactory.raw.Makes key { id := own.id })
    (hl : ∀ l, target = some l → l.stop ≤ p.data.length)
    (hrun : ∀ l run, options l = some run → run.stop ≤ p.data.length) (fits : RawView → Bool)
    (depth : Nat) :
    Alike key own.id depth target target.isSome (p.bindCaller options target own)
      ((p.bindCaller options target own).map (·) (required own.id.name depth))
      (p.fetch key fits { id := own.id } options target) := by
  cases target with
  | none => exact ⟨rfl, rfl, rfl, ⟨none, rfl, rfl⟩, nofun⟩
  | some l =>
    have hcaller : p.bindCaller options (some l) own =
        (.shown own.id p.data l (options l), .ok true) := by
      simp only [bindCaller, bindOnto_unbind (hl l rfl) (hrun l)]
    have hagrees := h.agrees_acquired hraw hmake fits
    obtain ⟨cache, hfetch, -, hslots⟩ := p.fetch_eq_settled key fits { id := own.id } options l
    rw [bindOnto_unbind (hl l rfl) (hrun l)] at hfetch hslots
    rw [hcaller, hfetch]
    refine ⟨rfl, rfl, rfl, ⟨_, rfl, rfl⟩, ?_⟩
    rintro _ ⟨⟩
    refine ⟨hagrees, rfl, ?_⟩
    show List.lookup key cache.slots = _
    rw [hslots, ViewCache.lookup_put, if_pos rfl]
    rfl

theorem snd_demandHeader_of_ok {found : Option RawView}
    (h : (p.cachedHeader id depth).2 = .ok found) :
    (p.demandHeader id depth).2 = found.elim (.error (.headerNotFound id.name depth)) .ok := by
  rw [demandHeader_eq_map, Prod.map_snd, h]
  cases found <;> rfl

end

/-- **Callers' views and cached views agree.** After any requests to a packet with raw views, a
header or an extension of one is found for a view of the caller exactly if it is found for the
cached one, namely if the packet has it, and both are bound to the same range, bytes and options
then. If it is demanded, it is found in the same cases, and the error says that it is missing in all
others. -/
theorem own_and_cached_views_agree (setup : PacketSetup) (requests : List Request) :
    let p := ((unbound setup ViewFactory.raw).run requests).1
    (∀ (own : RawView) depth,
      Alike (.ofHeader own.id) own.id depth (p.locate? own.id depth) (p.hasHeader own.id depth)
        (p.bindHeaderIfAny own depth) (p.bindHeader own depth) (p.cachedHeader own.id depth)) ∧
    (∀ parent (own : RawView) depth,
      Alike (.ofExtension parent own.id) own.id depth (p.index.extension? parent own.id depth none)
        (p.hasExtension parent own.id depth) (p.bindExtensionIfAny parent own depth none)
        (p.bindExtension parent own depth) (p.cachedExtension parent own.id depth)) ∧
    ∀ id depth, ∃ found, (p.cachedHeader id depth).2 = .ok found ∧
      found.isSome = p.hasHeader id depth ∧
      (p.demandHeader id depth).2 = found.elim (.error (.headerNotFound id.name depth)) .ok := by
  intro p
  have hfits : p.Fits := fits_run setup _ requests
  have hstemming : p.Stemming := stemming_run setup _ requests
  have hraw : p.cache.factory = .raw := ((unbound setup _).sameSetup_run requests).factory_eq
  have hwithin : ∀ {l : Placement}, l.stop ≤ p.index.captureLength → l.stop ≤ p.data.length :=
    fun hl => Nat.le_trans hl hfits.captureLength_le
  -- extensions are bound without options
  have hnone : ∀ run, (none : Option OptionRun) = some run → run.stop ≤ p.data.length := nofun
  have hheader : ∀ (own : RawView) depth,
      Alike (.ofHeader own.id) own.id depth (p.locate? own.id depth) (p.hasHeader own.id depth)
        (p.bindHeaderIfAny own depth) (p.bindHeader own depth) (p.cachedHeader own.id depth) := by
    intro own depth
    rw [cachedHeader_eq_fetch, hraw]
    exact alike_of_within hstemming hraw (.header own.id)
      (fun l hl => hwithin (hfits.stop_locate?_le hl))
      (fun l run hrun => Nat.le_trans (hfits.stop_ownOptions?_le hrun) hfits.captureLength_le) _ _
  refine ⟨hheader, ?_, ?_⟩
  · intro parent own depth
    rw [cachedExtension_eq_fetch, hraw]
    exact alike_of_within hstemming hraw (.extension parent own.id)
      (fun l hl => hwithin (hfits.bounded.stop_extension?_le hl)) (fun _ => hnone) _ _
  · intro id depth
    obtain ⟨found, hfound, hthere⟩ := (hheader { id } depth).cached_eq
    exact ⟨found, hfound, hthere, snd_demandHeader_of_ok hfound⟩

end Packet

end FrameIndex
