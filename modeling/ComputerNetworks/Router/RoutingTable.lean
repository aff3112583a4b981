import ComputerNetworks.Core.InetAddress
import ComputerNetworks.Core.TextFile
import ComputerNetworks.Router.ArpQueue
import ComputerNetworks.Router.Packet

/-!
# Loading the routing table

`sr_load_rt` reads a file line by line and adds a route for each line, with what
its four arrays hold then. A line with fewer fields leaves arrays as an earlier
line, or nobody, has filled them, and the result of `sscanf` is not looked at.
-/

namespace ComputerNetworks.Router

variable {Site : Type}

/-- `BUFSIZ`. -/
def bufsiz : Nat := 8192

/-- The arrays of `sr_load_rt`, of 32 bytes each. -/
structure RtArrays where
  dest : List UInt8
  gw : List UInt8
  mask : List UInt8
  iface : List UInt8
  deriving DecidableEq, Repr

/-- A route that was added, with the line that was read last. -/
structure RtAdded where
  line : List UInt8
  route : SrRt
  deriving DecidableEq, Repr

/-- A conversion `%s` into an array, if there was a word left. -/
def storeWord (array : List UInt8) : Option (List UInt8) → Exec Site (List UInt8)
  | none => .ok array
  | some word => memcpyAt array 0 (word ++ [0])

/-- `sscanf(line, "%s %s %s %s", dest, gw, mask, iface)`. -/
def scanLine (arrays : RtArrays) (line : List UInt8) : Exec Site RtArrays := do
  let words := scanWords 4 (← cstr (line ++ [0]) 0)
  let dest ← storeWord arrays.dest words[0]?
  let gw ← storeWord arrays.gw words[1]?
  let mask ← storeWord arrays.mask words[2]?
  let iface ← storeWord arrays.iface words[3]?
  pure ⟨dest, gw, mask, iface⟩

/-- `inet_aton` of an array: the address as it is stored, in network order. -/
def atonArray (array : List UInt8) : Exec Site (Option UInt32) := do
  let s ← cstr array 0
  pure ((inetAton s).map fun bytes => word32 bytes 0)

/-- The three conversions of a line, up to the first that fails. -/
def readAddrs (arrays : RtArrays) : Exec Site (Option (UInt32 × UInt32 × UInt32)) := do
  match ← atonArray arrays.dest with
  | none => pure none
  | some dest =>
    match ← atonArray arrays.gw with
    | none => pure none
    | some gw =>
      match ← atonArray arrays.mask with
      | none => pure none
      | some mask => pure (some (dest, gw, mask))

/-- The route `sr_add_rt_entry` makes. -/
def newRoute (dest gw mask : UInt32) (ifName : List UInt8) : Exec Site SrRt := do
  let interface ← strncpy (List.replicate ifaceNamelen 0) ifName ifaceNamelen
  pure ⟨dest, gw, mask, interface⟩

/-- `sr_add_rt_entry`; the allocator does what it is asked to. -/
def addRtEntry (sr : SrInstance) (route : SrRt) : SrInstance :=
  { sr with routingTable := sr.routingTable ++ [route] }

/-- The loop of `sr_load_rt`, with a record of the routes it added. -/
def loadLoop : List (List UInt8) → RtArrays → Bool → SrInstance →
    Exec Site (Int × SrInstance × List RtAdded)
  | [], _, _, sr => .ok (0, sr, [])
  | line :: rest, arrays, cleared, sr => do
    let arrays ← scanLine arrays line
    match ← readAddrs arrays with
    | none => pure (-1, sr, [])
    | some (dest, gw, mask) => do
      let sr := if cleared then sr else { sr with routingTable := [] }
      let route ← newRoute dest gw mask arrays.iface
      let (ret, sr, added) ← loadLoop rest arrays true (addRtEntry sr route)
      pure (ret, sr, ⟨line, route⟩ :: added)

/-- `sr_load_rt`, with what its arrays held before and the content of the file, if it can
be read. -/
def loadRt (arrays : RtArrays) (file : Option (List UInt8)) (sr : SrInstance) :
    Exec Site (Int × SrInstance × List RtAdded) :=
  match file with
  | none => .ok (-1, sr, [])
  | some content => loadLoop (fgetsLines bufsiz content) arrays false sr

/-- The fields of a line, at most four. -/
def fields (line : List UInt8) : List (List UInt8) := scanWords 4 (line.takeWhile (· != 0))

/-- The route of a line with four fields. -/
def fieldsRoute : List (List UInt8) → Option SrRt
  | [dest, gw, mask, iface] => do
    let dest ← inetAton dest
    let gw ← inetAton gw
    let mask ← inetAton mask
    pure ⟨word32 dest 0, word32 gw 0, word32 mask 0, nameBlock iface⟩
  | _ => none

/-- A field that should be an address is none. -/
def Refused (fs : List (List UInt8)) : Prop := ∃ word ∈ fs.take 3, inetAton word = none

instance decidableRefused (fs : List (List UInt8)) : Decidable (Refused fs) :=
  inferInstanceAs (Decidable (∃ word ∈ fs.take 3, inetAton word = none))

theorem fields_length_le (line : List UInt8) : (fields line).length ≤ 4 := scanWords_length_le _ _

theorem zero_notMem_fields {line word : List UInt8} (h : word ∈ fields line) : 0 ∉ word := by
  intro hzero
  simpa using List.mem_takeWhile_imp (subset_of_mem_scanWords h hzero)

/-- The newline of a line adds no field. -/
theorem fields_newline (line : List UInt8) : fields (line ++ [10]) = fields line := by
  unfold fields
  rw [List.takeWhile_append]
  split
  · rename_i hall
    rw [(List.takeWhile_prefix _).eq_of_length hall]
    exact scanWords_concat (by decide) 4 line
  · rfl

/-- A route comes of four fields, the first three of them addresses. -/
theorem fieldsRoute_isSome {fs : List (List UInt8)} (hlen : fs.length ≤ 4) :
    (fieldsRoute fs).isSome = true ↔ fs.length = 4 ∧ ¬Refused fs := by
  rcases fs with _ | ⟨dest, _ | ⟨gw, _ | ⟨mask, _ | ⟨iface, _ | ⟨more, rest⟩⟩⟩⟩⟩
  · simp [fieldsRoute]
  · simp [fieldsRoute]
  · simp [fieldsRoute]
  · simp [fieldsRoute]
  · cases hdest : inetAton dest <;> cases hgw : inetAton gw <;> cases hmask : inetAton mask <;>
      simp [fieldsRoute, Refused, hdest, hgw, hmask]
  · simp only [List.length_cons] at hlen
    omega

/-- What a conversion leaves in an array: the word, or what was there. -/
def Stores (array array' : List UInt8) (word : Option (List UInt8)) : Prop :=
  array'.length = 32 ∧ word.elim (array' = array) (CStrAt array' 0)

/-- A word that was stored is the string in its array. -/
theorem Stores.holds {array array' : List UInt8} {word : Option (List UInt8)}
    (h : Stores array array' word) : ∀ w ∈ word, CStrAt array' 0 w := by
  rintro w rfl
  exact h.2

/-- A short word is stored in its array. -/
theorem storeWord_spec {array : List UInt8} (hsize : array.length = 32)
    {word : Option (List UInt8)} (hword : ∀ w ∈ word, w.length < 32 ∧ 0 ∉ w) :
    ∃ array', (storeWord array word : Exec Site _) = .ok array' ∧ Stores array array' word := by
  cases word with
  | none => exact ⟨array, rfl, hsize, rfl⟩
  | some w =>
    obtain ⟨hlen, hzero⟩ := hword w rfl
    refine ⟨w ++ [0] ++ array.drop (w ++ [0]).length, ?_, ?_, hzero, List.prefix_append _ _⟩
    · rw [storeWord, memcpyAt_zero]
      rw [List.length_append, List.length_singleton]
      omega
    · simp only [List.length_append, List.length_singleton, List.length_drop]
      omega

/-- The arrays have the size they are declared with. -/
structure RtArrays.Sized (arrays : RtArrays) : Prop where
  dest : arrays.dest.length = 32
  gw : arrays.gw.length = 32
  mask : arrays.mask.length = 32
  iface : arrays.iface.length = 32

/-- The conversions of a line whose fields fit. -/
structure Scanned (arrays arrays' : RtArrays) (fs : List (List UInt8)) : Prop where
  dest : Stores arrays.dest arrays'.dest fs[0]?
  gw : Stores arrays.gw arrays'.gw fs[1]?
  mask : Stores arrays.mask arrays'.mask fs[2]?
  iface : Stores arrays.iface arrays'.iface fs[3]?

theorem Scanned.sized {arrays arrays' : RtArrays} {fs : List (List UInt8)}
    (h : Scanned arrays arrays' fs) : arrays'.Sized := ⟨h.dest.1, h.gw.1, h.mask.1, h.iface.1⟩

/-- A line with short fields is scanned into the arrays. -/
theorem scanLine_spec {arrays : RtArrays} (hsized : arrays.Sized) {line : List UInt8}
    (hfit : ∀ word ∈ fields line, word.length < 32) :
    ∃ arrays', (scanLine arrays line : Exec Site _) = .ok arrays' ∧
      Scanned arrays arrays' (fields line) := by
  have hword : ∀ (i : Nat) (w : List UInt8), w ∈ (fields line)[i]? → w.length < 32 ∧ 0 ∉ w := by
    intro i w hw
    have hmem := List.mem_of_getElem? hw
    exact ⟨hfit w hmem, zero_notMem_fields hmem⟩
  obtain ⟨dest, hdest, hd⟩ := @storeWord_spec Site _ hsized.dest _ (hword 0)
  obtain ⟨gw, hgw, hg⟩ := @storeWord_spec Site _ hsized.gw _ (hword 1)
  obtain ⟨mask, hmask, hm⟩ := @storeWord_spec Site _ hsized.mask _ (hword 2)
  obtain ⟨iface, hiface, hi⟩ := @storeWord_spec Site _ hsized.iface _ (hword 3)
  refine ⟨⟨dest, gw, mask, iface⟩, ?_, hd, hg, hm, hi⟩
  unfold fields at hdest hgw hmask hiface
  simp only [scanLine, (cstrAt_terminated line).cstr, Exec.ok_bind, hdest, hgw, hmask, hiface,
    Exec.pure_eq_ok]

theorem atonArray_eq {array word : List UInt8} (h : CStrAt array 0 word) :
    (atonArray array : Exec Site _) = .ok ((inetAton word).map fun bytes => word32 bytes 0) := by
  rw [atonArray, h.cstr, Exec.ok_bind, Exec.pure_eq_ok]

/-- The array holds an address. -/
def HoldsAddr (array : List UInt8) (addr : UInt32) : Prop :=
  ∃ word bytes, CStrAt array 0 word ∧ inetAton word = some bytes ∧ word32 bytes 0 = addr

/-- An array that holds an address is read as that address. -/
theorem HoldsAddr.atonArray_eq {array : List UInt8} {addr : UInt32} (h : HoldsAddr array addr) :
    (atonArray array : Exec Site _) = .ok (some addr) := by
  obtain ⟨word, bytes, hstr, haton, rfl⟩ := h
  rw [Router.atonArray_eq hstr, haton]
  rfl

/-- Arrays that hold three addresses and a name. -/
structure RtArrays.Ready (arrays : RtArrays) (dest gw mask : UInt32) (name : List UInt8) :
    Prop where
  dest : HoldsAddr arrays.dest dest
  gw : HoldsAddr arrays.gw gw
  mask : HoldsAddr arrays.mask mask
  iface : CStrAt arrays.iface 0 name

/-- The three addresses are read from ready arrays. -/
theorem RtArrays.Ready.readAddrs_eq {arrays : RtArrays} {dest gw mask : UInt32} {name : List UInt8}
    (h : arrays.Ready dest gw mask name) :
    (readAddrs arrays : Exec Site _) = .ok (some (dest, gw, mask)) := by
  simp only [readAddrs, h.dest.atonArray_eq, h.gw.atonArray_eq, h.mask.atonArray_eq, Exec.ok_bind,
    Exec.pure_eq_ok]

/-- The conversions end with the first that fails. -/
theorem readAddrs_refused {arrays : RtArrays} {fs : List (List UInt8)}
    (hdest : ∀ word ∈ fs[0]?, CStrAt arrays.dest 0 word)
    (hgw : ∀ word ∈ fs[1]?, CStrAt arrays.gw 0 word)
    (hmask : ∀ word ∈ fs[2]?, CStrAt arrays.mask 0 word) (hrefused : Refused fs) :
    (readAddrs arrays : Exec Site _) = .ok none := by
  obtain ⟨word, hmem, hnone⟩ := hrefused
  rcases fs with _ | ⟨dest, fs⟩
  · exact absurd hmem List.not_mem_nil
  have hdest' := @atonArray_eq Site _ _ (hdest dest rfl)
  cases hd : inetAton dest with
  | none => simp only [readAddrs, hdest', hd, Option.map_none, Exec.ok_bind, Exec.pure_eq_ok]
  | some _ =>
    have hlater : word ∈ fs.take 2 := by
      refine (List.mem_cons.1 hmem).resolve_left ?_
      rintro rfl
      cases hd.symm.trans hnone
    rcases fs with _ | ⟨gw, fs⟩
    · exact absurd hlater List.not_mem_nil
    have hgw' := @atonArray_eq Site _ _ (hgw gw rfl)
    cases hg : inetAton gw with
    | none =>
      simp only [readAddrs, hdest', hd, hgw', hg, Option.map_none, Option.map_some, Exec.ok_bind,
        Exec.pure_eq_ok]
    | some _ =>
      have hlast : word ∈ fs.take 1 := by
        refine (List.mem_cons.1 hlater).resolve_left ?_
        rintro rfl
        cases hg.symm.trans hnone
      rcases fs with _ | ⟨mask, fs⟩
      · exact absurd hlast List.not_mem_nil
      obtain rfl : word = mask := List.mem_singleton.1 hlast
      have hmask' := @atonArray_eq Site _ _ (hmask word rfl)
      simp only [readAddrs, hdest', hd, hgw', hg, hmask', hnone, Option.map_none, Option.map_some,
        Exec.ok_bind, Exec.pure_eq_ok]

/-- A line with a field that is no address ends the loop. -/
theorem loadLoop_refused {arrays : RtArrays} (hsized : arrays.Sized) {line : List UInt8}
    (hfit : ∀ word ∈ fields line, word.length < 32) (hrefused : Refused (fields line))
    (rest : List (List UInt8)) (cleared : Bool) (sr : SrInstance) :
    (loadLoop (line :: rest) arrays cleared sr : Exec Site _) = .ok (-1, sr, []) := by
  obtain ⟨arrays', hscan, h⟩ := @scanLine_spec Site _ hsized _ hfit
  have hread : (readAddrs arrays' : Exec Site _) = .ok none :=
    readAddrs_refused h.dest.holds h.gw.holds h.mask.holds hrefused
  simp only [loadLoop, hscan, hread, Exec.ok_bind, Exec.pure_eq_ok]

/-- Where the arrays hold addresses and a name behind a line, its route is added. -/
theorem loadLoop_added {arrays arrays' : RtArrays} {line : List UInt8}
    (hscan : (scanLine arrays line : Exec Site _) = .ok arrays') {dest gw mask : UInt32}
    {name : List UInt8} (hready : arrays'.Ready dest gw mask name) (rest : List (List UInt8))
    (cleared : Bool) (sr : SrInstance) :
    (loadLoop (line :: rest) arrays cleared sr : Exec Site _) =
      (loadLoop rest arrays' true
        (addRtEntry (if cleared then sr else { sr with routingTable := [] })
          ⟨dest, gw, mask, nameBlock name⟩) >>= fun out =>
          pure (out.1, out.2.1, ⟨line, dest, gw, mask, nameBlock name⟩ :: out.2.2)) := by
  have hname := @CStrAt.strncpy_eq Site _ _ _ _ hready.iface
    (List.length_replicate (n := ifaceNamelen) (a := (0 : UInt8)))
  simp only [loadLoop, hscan, hready.readAddrs_eq, newRoute, hname, Exec.ok_bind, Exec.pure_eq_ok]
  rfl

/-- A line with four fields, its addresses valid, fills all of the arrays. -/
theorem Scanned.ready_of_full {arrays arrays' : RtArrays} {fs : List (List UInt8)}
    (h : Scanned arrays arrays' fs) {route : SrRt} (hroute : fieldsRoute fs = some route) :
    ∃ name, arrays'.Ready route.dest route.gw route.mask name ∧
      route.interface = nameBlock name := by
  unfold fieldsRoute at hroute
  split at hroute
  · rename_i dest gw mask iface
    obtain ⟨d, hdest, hroute⟩ := Option.bind_eq_some_iff.1 hroute
    obtain ⟨g, hgw, hroute⟩ := Option.bind_eq_some_iff.1 hroute
    obtain ⟨m, hmask, hroute⟩ := Option.bind_eq_some_iff.1 hroute
    cases hroute
    exact ⟨iface, ⟨⟨dest, d, h.dest.2, hdest, rfl⟩, ⟨gw, g, h.gw.2, hgw, rfl⟩,
      ⟨mask, m, h.mask.2, hmask, rfl⟩, h.iface.2⟩, rfl⟩
  · cases hroute

/-- Arrays that are filled stay so under a line of which no field is refused. -/
theorem Scanned.ready {arrays arrays' : RtArrays} {fs : List (List UInt8)}
    (h : Scanned arrays arrays' fs) (haccepted : ¬Refused fs) {dest gw mask : UInt32}
    {name : List UInt8} (hready : arrays.Ready dest gw mask name) :
    ∃ dest gw mask name, arrays'.Ready dest gw mask name := by
  have haddr : ∀ {array array' : List UInt8} {i : Nat} {addr : UInt32}, i < 3 →
      Stores array array' fs[i]? → HoldsAddr array addr → ∃ addr', HoldsAddr array' addr' := by
    intro array array' i addr hi hstores hholds
    cases hword : fs[i]? with
    | none =>
      rw [hword] at hstores
      have hsame : array' = array := hstores.2
      exact ⟨addr, hsame ▸ hholds⟩
    | some word =>
      rw [hword] at hstores
      have hmem : word ∈ fs.take 3 := by
        refine List.mem_of_getElem? (i := i) ?_
        rw [List.getElem?_take_of_lt hi]
        exact hword
      cases haton : inetAton word with
      | none => exact absurd ⟨word, hmem, haton⟩ haccepted
      | some bytes => exact ⟨_, word, bytes, hstores.2, haton, rfl⟩
  obtain ⟨dest', hdest⟩ := haddr (by decide) h.dest hready.dest
  obtain ⟨gw', hgw⟩ := haddr (by decide) h.gw hready.gw
  obtain ⟨mask', hmask⟩ := haddr (by decide) h.mask hready.mask
  cases hword : fs[3]? with
  | none =>
    have hsame : arrays'.iface = arrays.iface := by
      have hiface := h.iface.2
      rw [hword] at hiface
      exact hiface
    exact ⟨dest', gw', mask', name, hdest, hgw, hmask, hsame ▸ hready.iface⟩
  | some word => exact ⟨dest', gw', mask', word, hdest, hgw, hmask, h.iface.holds word hword⟩

/-- From arrays that are filled, each line before the first that is refused adds a route, whether or
not it has fields of its own. -/
theorem loadLoop_records {lines : List (List UInt8)} {arrays : RtArrays} (hsized : arrays.Sized)
    (hfit : ∀ line ∈ lines, ∀ word ∈ fields line, word.length < 32) {dest gw mask : UInt32}
    {name : List UInt8} (hready : arrays.Ready dest gw mask name) {cleared : Bool} {sr : SrInstance}
    {out : Int × SrInstance × List RtAdded}
    (hrun : (loadLoop lines arrays cleared sr : Exec Site _) = .ok out) :
    ∀ line ∈ lines.takeWhile (fun line => ¬Refused (fields line)),
      ∃ route, ⟨line, route⟩ ∈ out.2.2 := by
  induction lines generalizing arrays dest gw mask name cleared sr out with
  | nil => exact nofun
  | cons line lines ih =>
    obtain ⟨hline, hfit⟩ := List.forall_mem_cons.1 hfit
    by_cases hrefused : Refused (fields line)
    · rw [List.takeWhile_cons_of_neg (by simpa using hrefused)]
      exact nofun
    · obtain ⟨arrays', hscan, hscanned⟩ := @scanLine_spec Site _ hsized _ hline
      obtain ⟨dest', gw', mask', name', hready'⟩ := hscanned.ready hrefused hready
      rw [loadLoop_added hscan hready'] at hrun
      obtain ⟨out', hrun', hout⟩ := Exec.bind_eq_ok.1 hrun
      cases hout
      rw [List.takeWhile_cons_of_pos (by simpa using hrefused)]
      refine List.forall_mem_cons.2 ⟨⟨_, List.mem_cons_self⟩, fun line' hline' => ?_⟩
      obtain ⟨route, hroute⟩ := ih hscanned.sized hfit hready' hrun' line' hline'
      exact ⟨route, List.mem_cons_of_mem _ hroute⟩

/-- Where each line before the first that is refused has four fields, every route that is added is
one of its own line; where moreover none is refused, each line adds its route. -/
theorem loadLoop_full {lines : List (List UInt8)} {arrays : RtArrays} (hsized : arrays.Sized)
    (hfit : ∀ line ∈ lines, ∀ word ∈ fields line, word.length < 32)
    (hfull : ∀ line ∈ lines.takeWhile (fun line => ¬Refused (fields line)),
      (fields line).length = 4)
    (cleared : Bool) (sr : SrInstance) :
    ∃ ret sr' added, (loadLoop lines arrays cleared sr : Exec Site _) = .ok (ret, sr', added) ∧
      (∀ x ∈ added, fieldsRoute (fields x.line) = some x.route) ∧
      ((∀ line ∈ lines, ¬Refused (fields line)) → ret = 0 ∧
        sr'.routingTable.map some =
          (if cleared = true ∨ lines = [] then sr.routingTable else []).map some ++
          lines.map fun line => fieldsRoute (fields line)) := by
  induction lines generalizing arrays cleared sr with
  | nil =>
    refine ⟨0, sr, [], rfl, nofun, fun _ => ⟨rfl, ?_⟩⟩
    rw [if_pos (Or.inr rfl), List.map_nil, List.append_nil]
  | cons line lines ih =>
    obtain ⟨hline, hfit⟩ := List.forall_mem_cons.1 hfit
    by_cases hrefused : Refused (fields line)
    · refine ⟨-1, sr, [], loadLoop_refused hsized hline hrefused _ _ _, nofun, fun h => ?_⟩
      exact absurd hrefused (h line List.mem_cons_self)
    · rw [List.takeWhile_cons_of_pos (by simpa using hrefused), List.forall_mem_cons] at hfull
      obtain ⟨arrays', hscan, hscanned⟩ := @scanLine_spec Site _ hsized _ hline
      obtain ⟨route, hroute⟩ := Option.isSome_iff_exists.1
        ((fieldsRoute_isSome (fields_length_le line)).2 ⟨hfull.1, hrefused⟩)
      obtain ⟨name, hready, hname⟩ := hscanned.ready_of_full hroute
      have hsame : (⟨route.dest, route.gw, route.mask, nameBlock name⟩ : SrRt) = route := by
        rw [← hname]
      obtain ⟨ret, sr', added, hrun, hown, hall⟩ := ih hscanned.sized hfit hfull.2 true
        (addRtEntry (if cleared then sr else { sr with routingTable := [] }) route)
      have hstep := @loadLoop_added Site _ _ _ hscan _ _ _ _ hready lines cleared sr
      rw [hsame, hrun, Exec.ok_bind] at hstep
      refine ⟨ret, sr', ⟨line, route⟩ :: added, hstep, List.forall_mem_cons.2 ⟨hroute, hown⟩,
        fun h => ?_⟩
      obtain ⟨hret, htable⟩ := hall fun line' hline' => h line' (List.mem_cons_of_mem _ hline')
      refine ⟨hret, htable.trans ?_⟩
      rw [List.map_cons, hroute]
      cases cleared <;> simp [addRtEntry]

/-- The fields of the lines of a file, the last of which may lack its newline. -/
def fileFields (lines : List (List UInt8)) (tail : List UInt8) : List (List (List UInt8)) :=
  (lines ++ if tail = [] then [] else [tail]).map fields

/-- Where each line that is not blank has four fields with valid addresses, the call returns 0 and
the table is the list of their routes; and no route is added but of the fields of its own line. -/
def LoadsRight (fs : List (List (List UInt8)))
    (outcome : Exec Site (Int × SrInstance × List RtAdded)) : Prop :=
  ∃ ret sr' added, outcome = .ok (ret, sr', added) ∧
    ((∀ f ∈ fs, f = [] ∨ (fieldsRoute f).isSome = true) →
      ret = 0 ∧ sr'.routingTable.map some = (fs.filter fun f => f ≠ []).map fieldsRoute) ∧
    ∀ x ∈ added, fieldsRoute (fields x.line) = some x.route

/-- Arrays that happen to hold addresses and a name. -/
def zeroArrays : RtArrays where
  dest := 48 :: List.replicate 31 0
  gw := 48 :: List.replicate 31 0
  mask := 48 :: List.replicate 31 0
  iface := List.replicate 32 0

theorem zeroArrays_sized : zeroArrays.Sized := ⟨rfl, rfl, rfl, rfl⟩

theorem zeroArrays_ready : zeroArrays.Ready 0 0 0 [] := by
  have haddr : HoldsAddr (48 :: List.replicate 31 0) 0 :=
    ⟨[48], [0, 0, 0, 0], ⟨by decide, List.replicate 30 0, rfl⟩, by decide, by decide⟩
  exact ⟨haddr, haddr, haddr, ⟨by decide, List.replicate 31 0, rfl⟩⟩

/-- Whatever the arrays held before, a file is loaded right exactly when each line before the first
with a field that is no address has four fields; an empty file only over an empty table. -/
theorem loadRt_iff {lines : List (List UInt8)} {tail : List UInt8}
    (hlines : ∀ line ∈ lines, 10 ∉ line ∧ line.length + 1 < bufsiz) (htail : 10 ∉ tail)
    (hlast : tail.length < bufsiz)
    (hwords : ∀ fs ∈ fileFields lines tail, ∀ word ∈ fs, word.length < 32) (sr : SrInstance) :
    (∀ arrays : RtArrays, arrays.Sized → @LoadsRight Site (fileFields lines tail)
        (loadRt arrays (some (lines.flatMap (fun line => line ++ [10]) ++ tail)) sr)) ↔
      (fileFields lines tail = [] → sr.routingTable = []) ∧
        ∀ fs ∈ (fileFields lines tail).takeWhile (fun fs => ¬Refused fs), fs.length = 4 := by
  obtain ⟨chunks, hchunks, hfields⟩ : ∃ chunks, fgetsLines bufsiz
      (lines.flatMap (fun line => line ++ [10]) ++ tail) = chunks ∧
        chunks.map fields = fileFields lines tail := by
    refine ⟨_, fgetsLines_eq hlines htail hlast, ?_⟩
    rw [fileFields, List.map_append, List.map_append, List.map_map]
    exact congrArg (· ++ _) (List.map_congr_left fun line _ => fields_newline line)
  rw [← hfields] at hwords ⊢
  simp only [loadRt, hchunks]
  rw [List.forall_mem_map] at hwords
  rw [List.takeWhile_map, List.forall_mem_map, List.map_eq_nil_iff]
  constructor
  · intro h
    refine ⟨?_, ?_⟩
    · rintro rfl
      obtain ⟨ret, sr', added, hrun, htable, -⟩ := h _ zeroArrays_sized
      cases hrun
      exact List.map_eq_nil_iff.1 (htable nofun).2
    · obtain ⟨ret, sr', added, hrun, -, hown⟩ := h _ zeroArrays_sized
      intro line hline
      obtain ⟨route, hroute⟩ :=
        loadLoop_records zeroArrays_sized hwords zeroArrays_ready hrun line hline
      have hsome : (fieldsRoute (fields line)).isSome = true := by rw [hown _ hroute]; rfl
      exact ((fieldsRoute_isSome (fields_length_le line)).1 hsome).1
  · rintro ⟨hempty, hfull⟩ arrays hsized
    obtain ⟨ret, sr', added, hrun, hown, hall⟩ :=
      @loadLoop_full Site _ _ hsized hwords hfull false sr
    refine ⟨ret, sr', added, hrun, fun hvalid => ?_, hown⟩
    rw [List.forall_mem_map] at hvalid
    have haccepted : ∀ line ∈ chunks, ¬Refused (fields line) := by
      intro line hline
      rcases hvalid line hline with hblank | hroute
      · rw [hblank]
        rintro ⟨word, hword, -⟩
        exact List.not_mem_nil hword
      · exact ((fieldsRoute_isSome (fields_length_le line)).1 hroute).2
    have hwhole : chunks.takeWhile (fun line => ¬Refused (fields line)) = chunks :=
      List.takeWhile_eq_self_iff.2 fun line hline => decide_eq_true (haccepted line hline)
    have hnone : (chunks.map fields).filter (fun f => f ≠ []) = chunks.map fields := by
      refine List.filter_eq_self.2 (List.forall_mem_map.2 fun line hline => decide_eq_true ?_)
      rintro hblank
      have hlen := hfull line (hwhole.symm ▸ hline)
      rw [hblank] at hlen
      cases hlen
    obtain ⟨hret, htable⟩ := hall haccepted
    refine ⟨hret, ?_⟩
    have hold : (if false = true ∨ chunks = [] then sr.routingTable else []) = [] := by
      split
      · rename_i hnil
        exact hempty (hnil.resolve_left Bool.false_ne_true)
      · rfl
    rw [hnone, htable, hold, List.map_nil, List.nil_append, List.map_map]
    rfl

/-- A line of the table that comes with the router: a host, behind an interface. -/
def hostLine (a b c d digit : UInt8) : List UInt8 :=
  dotted a b c d ++ [32, 32, 32] ++ dotted a b c d ++ [32, 32, 32, 32] ++ dotted 255 255 255 255 ++
    [32, 32, 32, 32] ++ [101, 116, 104, 48 + digit]

/-- The lines of that table but for the blank ones at its end. -/
def shippedLines : List (List UInt8) :=
  [hostLine 192 168 2 2 1, hostLine 172 64 3 10 2, hostLine 10 0 1 100 3]

/-- A router without interfaces and routes. -/
def bareRouter : SrInstance := ⟨[], [], arpcacheInit (fun _ => none) (fun _ => none), [], []⟩

theorem loadRt_iff_shipped :
    (∀ arrays : RtArrays, arrays.Sized → @LoadsRight Empty (fileFields shippedLines [])
        (loadRt arrays (some (shippedLines.flatMap (fun line => line ++ [10]) ++ [])) bareRouter)) ↔
      (fileFields shippedLines [] = [] → bareRouter.routingTable = []) ∧
        ∀ fs ∈ (fileFields shippedLines []).takeWhile (fun fs => ¬Refused fs), fs.length = 4 :=
  loadRt_iff (by decide +kernel) (by decide) (by decide) (by decide +kernel) bareRouter

/-- The table that comes with the router ends in two blank lines, each of which adds the route of
the last line again. -/
theorem shipped_loads_five :
    (∀ fs ∈ fileFields (shippedLines ++ [[], []]) [], fs = [] ∨ (fieldsRoute fs).isSome = true) ∧
      (∃ out, (loadRt zeroArrays
          (some ((shippedLines ++ [[], []]).flatMap fun line => line ++ [10]))
          bareRouter : Exec Empty _) = .ok out ∧ out.1 = 0 ∧ out.2.1.routingTable.length = 5) ∧
      ¬@LoadsRight Empty (fileFields (shippedLines ++ [[], []]) [])
        (loadRt zeroArrays (some ((shippedLines ++ [[], []]).flatMap fun line => line ++ [10]))
          bareRouter) := by
  have hvalid : ∀ fs ∈ fileFields (shippedLines ++ [[], []]) [],
      fs = [] ∨ (fieldsRoute fs).isSome = true := by decide +kernel
  have hrun : ((loadRt zeroArrays
      (some ((shippedLines ++ [[], []]).flatMap fun line => line ++ [10]))
      bareRouter : Exec Empty _).toOption.map fun out => (out.1, out.2.1.routingTable.length)) =
      some (0, 5) := by decide +kernel
  have hthree : ((fileFields (shippedLines ++ [[], []]) []).filter fun f => f ≠ []).length = 3 := by
    decide +kernel
  cases hload : (loadRt zeroArrays (some ((shippedLines ++ [[], []]).flatMap fun line =>
      line ++ [10])) bareRouter : Exec Empty _) with
  | error fault =>
    rw [hload] at hrun
    cases hrun
  | ok out =>
    rw [hload] at hrun
    obtain ⟨hret, hlen⟩ := Prod.ext_iff.1 (Option.some.inj hrun)
    refine ⟨hvalid, ⟨out, rfl, hret, hlen⟩, ?_⟩
    rintro ⟨ret, sr', added, hok, htable, -⟩
    cases hok
    have hsame := congrArg List.length (htable hvalid).2
    rw [List.length_map, List.length_map, hthree] at hsame
    exact absurd (hsame.symm.trans hlen) (by decide)

end ComputerNetworks.Router
