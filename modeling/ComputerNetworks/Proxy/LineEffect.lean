import ComputerNetworks.Proxy.ParsedRequest

/-!
# What the request line writes

How the passes over the request line end depends on the line alone, except that
a set `errno` turns the last success into a refusal. What they write into the
object depends on nothing the object held: a refusal frees the line and leaves
the path null or as it was, a success sets every field but the header store.
-/

namespace ComputerNetworks.Proxy

namespace ParsedRequest

/-- The exits that return -1. -/
structure Clears (write : ParsedRequest → ParsedRequest) : Prop where
  buf_eq : ∀ pr, (write pr).buf = none
  path_eq : ∀ pr, (write pr).path = .null ∨ (write pr).path = pr.path
  table_eq : ∀ pr, (write pr).toHeaderTable = pr.toHeaderTable

/-- The exits that return 0. -/
structure Stores (write : ParsedRequest → ParsedRequest) : Prop where
  buf_ne : ∀ pr, (write pr).buf ≠ none
  path_eq : ∀ pr, ∃ s, (write pr).path = .str s
  table_eq : ∀ pr, (write pr).toHeaderTable = pr.toHeaderTable
  forgets : ∀ pr pr', pr.toHeaderTable = pr'.toHeaderTable → pr.buflen = pr'.buflen →
    write pr = write pr'

/-- A part of the request line, as a function of `errno == EINVAL` and of the object. -/
inductive LineEffect (part : Bool → ParsedRequest → Run (Int × ParsedRequest)) : Prop where
  | fault (fault : Fault Empty) (h : ∀ errnoEinval pr, part errnoEinval pr = .error fault)
  | refused {write : ParsedRequest → ParsedRequest}
      (h : ∀ errnoEinval pr, part errnoEinval pr = .ok (-1, write pr)) (hw : Clears write)
  | stored {write : ParsedRequest → ParsedRequest}
      (h : ∀ errnoEinval pr, part errnoEinval pr = .ok (0, write pr)) (hw : Stores write)
  | judged {clear write : ParsedRequest → ParsedRequest}
      (h : ∀ errnoEinval pr, part errnoEinval pr =
        if errnoEinval then .ok (-1, clear pr) else .ok (0, write pr))
      (hc : Clears clear) (hw : Stores write)

/-- What comes before a part of the parser does not write the request. -/
theorem LineEffect.bind {α : Type} {m : Run α}
    {part : α → Bool → ParsedRequest → Run (Int × ParsedRequest)} (h : ∀ a, LineEffect (part a)) :
    LineEffect fun errnoEinval pr => m >>= fun a => part a errnoEinval pr := by
  cases m with
  | error fault => exact .fault fault fun _ _ => rfl
  | ok a => exact h a

/-- The port, with a number that `errno` may spoil. -/
theorem parseHostPort_effect (method version protocol host₀ : CharPtr) (path b : List UInt8)
    (host : Nat) :
    LineEffect fun errnoEinval pr => parseHostPort errnoEinval
      { pr with method, version, protocol, host := host₀, path := .str path } b host := by
  unfold parseHostPort
  refine .bind fun ⟨b, saveptr, host⟩ => .bind fun ⟨b, _, port⟩ => ?_
  have hstores (host port : CharPtr) : Stores fun pr =>
      { pr with method, version, protocol, host, port, path := .str path, buf := some b } := by
    refine ⟨fun _ => by simp, fun _ => ⟨path, rfl⟩, fun _ => rfl, fun pr pr' ht hlen => ?_⟩
    simp only [ht, hlen]
  cases host with
  | none => exact .refused (fun _ _ => rfl) ⟨fun _ => rfl, fun _ => .inl rfl, fun _ => rfl⟩
  | some host =>
    cases port with
    | none => exact .stored (fun _ _ => rfl) (hstores (.buf host) .null)
    | some port =>
      refine .bind fun text => ?_
      by_cases hzero : (strtol text).bmod (2 ^ 32) = 0
      · simp only [hzero, true_and]
        exact .judged (fun _ _ => rfl) ⟨fun _ => rfl, fun _ => .inl rfl, fun _ => rfl⟩
          (hstores (.buf host) (.buf port))
      · simp only [hzero, false_and, if_false]
        exact .stored (fun _ _ => rfl) (hstores (.buf host) (.buf port))

/-- The address is parsed into the fields of the line only. -/
theorem parseFullAddr_effect (method version : CharPtr) (b : List UInt8) (fullAddr : Nat) :
    LineEffect fun errnoEinval pr =>
      parseFullAddr errnoEinval { pr with method, version } b fullAddr := by
  unfold parseFullAddr
  refine .bind fun ⟨b, saveptr, protocol⟩ => ?_
  cases protocol with
  | none => exact .refused (fun _ _ => rfl) ⟨fun _ => rfl, fun _ => .inr rfl, fun _ => rfl⟩
  | some protocol =>
    refine .bind fun len => .bind fun absUriLen => .bind fun ⟨b, saveptr, host⟩ => ?_
    cases host with
    | none => exact .refused (fun _ _ => rfl) ⟨fun _ => rfl, fun _ => .inr rfl, fun _ => rfl⟩
    | some host =>
      refine .bind fun len => ?_
      by_cases hlen : len = absUriLen
      · simp only [if_pos hlen]
        exact .refused (fun _ _ => rfl) ⟨fun _ => rfl, fun _ => .inr rfl, fun _ => rfl⟩
      · simp only [if_neg hlen]
        refine .bind fun ⟨b, _, path⟩ => ?_
        cases path with
        | none => exact parseHostPort_effect method version (.buf protocol) _ rootAbsPath b host
        | some path =>
          refine .bind fun slash => ?_
          cases slash with
          | true =>
            simp only [if_true]
            exact .refused (fun _ _ => rfl) ⟨fun _ => rfl, fun _ => .inl rfl, fun _ => rfl⟩
          | false =>
            simp only [Bool.false_eq_true, if_false]
            exact .bind fun text =>
              parseHostPort_effect method version (.buf protocol) _ (rootAbsPath ++ text) b host

/-- So is the whole line. -/
theorem parseRequestLine_effect (b : List UInt8) :
    LineEffect fun errnoEinval pr => parseRequestLine errnoEinval pr b := by
  unfold parseRequestLine
  refine .bind fun ⟨b, saveptr, method⟩ => ?_
  cases method with
  | none => exact .refused (fun _ _ => rfl) ⟨fun _ => rfl, fun _ => .inr rfl, fun _ => rfl⟩
  | some method =>
    refine .bind fun ⟨b, _, fullAddr⟩ => ?_
    cases fullAddr with
    | none => exact .refused (fun _ _ => rfl) ⟨fun _ => rfl, fun _ => .inr rfl, fun _ => rfl⟩
    | some fullAddr =>
      refine .bind fun len => .bind fun http => ?_
      cases http with
      | false =>
        simp only [Bool.not_false, if_true]
        exact .refused (fun _ _ => rfl) ⟨fun _ => rfl, fun _ => .inr rfl, fun _ => rfl⟩
      | true =>
        simp only [Bool.not_true, Bool.false_eq_true, if_false]
        exact parseFullAddr_effect (.buf method) _ b fullAddr

end ParsedRequest

end ComputerNetworks.Proxy
