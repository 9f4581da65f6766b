import SubutaiTray.WebSocket.Dispatch

/-!
The replies of the server to the plugin of the browser.

All are put together from one format in three steps, and each step fills the lowest place marker that
is there then, be it one of the format or one in a text that was put in before.
-/
namespace SubutaiTray.WebSocket

variable {Client : Type}

/-- The texts of `CHubController::ssh_desktop_launch_err_to_str`. -/
def lstErrStr : List QString :=
  ["Success".toList,
    "Unable to start SSH into the container because the environment cannot be found. ".toList ++
      "Verify the state and setup of your environment in Bazaar.".toList,
    "Unable to start SSH into the container because the container cannot be found. ".toList ++
      "Verify that you have an active container set up in your environment in Bazaar.".toList,
    "Unable to start SSH because the container is not ready. ".toList ++
      "Try again after the container has been set up completely. ".toList ++
      "To check the container's state, go to its environment in Bazaar.".toList,
    "Failed to join the swarm because a P2P network cannot be created. ".toList ++
      "Check the Internet connection and make sure that P2P Daemon is set up and updated.".toList,
    "Unable to launch an SSH terminal due to a system call failure. ".toList ++
      "Try restarting your device before relaunching an SSH terminal.".toList,
    "Cannot SSH to the environment without a deployed SSH key. ".toList ++
      "To generate and deploy an SSH key, go to the menu > SSH Key Management.".toList,
    "Cannot file transfer to the environment without a deployed SSH key. ".toList ++
      "To generate and deploy an SSH key, go to the menu > SSH Key Management.".toList]

/-- The remainder of a negative number may be negative, and then it is no index. -/
def sshDesktopLaunchErrToStr (err : Int) : Option QString :=
  if err.tmod sdleLastErr < 0 then none else lstErrStr[(err.tmod sdleLastErr).toNat]?

/-- The text that is made of a result. -/
def finishedReply (result : Int) : Option QString :=
  (if result = 0 then some [] else sshDesktopLaunchErrToStr result).bind fun error =>
    (if result = 0 then sshDesktopLaunchErrToStr result else some []).map fun success =>
      arg (arg (arg replyFormat (number result)) error) success

/-- Both slots. -/
def containerFinished (result : Int) (client : Option Client) : Option (List (ServerAction Client)) :=
  (finishedReply result).map fun reply =>
    client.elim [] fun client => [.sendTextMessage client reply]

def sshToContainerFinished (result : Int) (client : Option Client) :
    Option (List (ServerAction Client)) :=
  containerFinished result client

def desktopToContainerFinished (result : Int) (client : Option Client) :
    Option (List (ServerAction Client)) :=
  containerFinished result client

/-- A message, or the end of what a message has started. -/
inductive ServerEvent (Client : Type) where
  | textMessage (sender : Option Client) (msg : QString)
  | sshFinished (result : Int) (client : Option Client)
  | desktopFinished (result : Int) (client : Option Client)

def ServerEvent.actions (world : ServerWorld) : ServerEvent Client → Option (List (ServerAction Client))
  | .textMessage sender msg => some (processTextMsg world sender msg)
  | .sshFinished result client => sshToContainerFinished result client
  | .desktopFinished result client => desktopToContainerFinished result client

/-! ## The form of a reply -/

/-- The form of all replies. -/
def replyText (code : Int) (error success : QString) : QString :=
  "code:".toList ++
    (number code ++ ("%%%error==".toList ++ (error ++ ("%%%success==".toList ++ success))))

/-- The message is unknown, or it has a wrong number of arguments. -/
def Refused (msg : QString) : Prop :=
  chosenHandler msg = .wrongCommand ∨
    chosenHandler msg = .ssh ∧ (commandArgs "cmd:ssh".toList 7 msg).length ≠ 3 ∨
    chosenHandler msg = .desktop ∧ (commandArgs "cmd:desktop".toList 11 msg).length ≠ 3 ∨
    chosenHandler msg = .sshCc ∧ (commandArgs "cmd:cc".toList 7 msg).length ≠ 3

def ServerEvent.Right (world : ServerWorld) (event : ServerEvent Client) : Prop :=
  match event with
  | .textMessage sender msg => ∀ client, sender = some client →
      (Refused msg → ∃ code error, msg <:+: error ∧
        event.actions world = some [.sendTextMessage client (replyText code error [])]) ∧
      (chosenHandler msg = .ssIp → ∃ code error success,
        event.actions world = some [.sendTextMessage client (replyText code error success)])
  | .sshFinished _ _ | .desktopFinished _ _ => ∃ actions, event.actions world = some actions ∧
      ∀ client text, .sendTextMessage client text ∈ actions →
        ∃ code error success, text = replyText code error success

/-- No message is taken for `ss_ip`, a refused one has no place marker up to the last of the format,
and the remainder of a result is an index. -/
def ServerEvent.Good : ServerEvent Client → Prop
  | .textMessage none _ => True
  | .textMessage (some _) msg =>
      (Refused msg → ∀ number ∈ markers msg, 3 < number) ∧ chosenHandler msg ≠ .ssIp
  | .sshFinished result _ | .desktopFinished result _ => 0 ≤ result.tmod sdleLastErr

/-! ## The steps of the format -/

theorem percent_notMem_number (n : Int) : '%' ∉ number n :=
  notMem_number (by decide) (by decide) n

/-- The two formats differ in the sign behind `error`. -/
def format (equals : QString) : QString :=
  "code:%1%%%error".toList ++ (equals ++ "%2%%%success==%3".toList)

variable {equals a error : QString}

theorem arg_arg_format (hequals : equals = "=".toList ∨ equals = "==".toList) (ha : '%' ∉ a)
    (error : QString) :
    arg (arg (format equals) a) error =
      "code:".toList ++ (a ++ ("%%%error".toList ++ (equals ++ (error ++ "%%%success==%3".toList)))) := by
  have hcode : '%' ∉ "code:".toList := by decide
  have hfirst : arg (format equals) a =
      "code:".toList ++ (a ++ ("%%%error".toList ++ (equals ++ "%2%%%success==%3".toList))) := by
    rcases hequals with rfl | rfl <;> rfl
  rw [hfirst, arg_append hcode, arg_append ha]
  rcases hequals with rfl | rfl <;> rfl

/-- The text in front of a character that breaks markers is left alone. -/
theorem arg_append_breaks {c : Char} (hc : Breaks c) {p : QString} (hp : markers p = []) (s a : QString) :
    arg (p ++ c :: s) a = p ++ c :: arg s a := by
  rw [arg_eq_fill, markers_append_breaks hc, hp, List.nil_append, fill_append_breaks hc, fill_of_notMem]
  · rfl
  · rw [hp]
    exact fun number hmem => absurd hmem List.not_mem_nil

theorem breaks_equals : Breaks '=' := ⟨by decide, by decide, by decide⟩

theorem breaks_quote : Breaks '"' := ⟨by decide, by decide, by decide⟩

/-- The last step leaves alone what stands in front of the error. -/
theorem arg_error (hequals : equals = "=".toList ∨ equals = "==".toList) (ha : '%' ∉ a)
    (rest success : QString) :
    arg ("code:".toList ++ (a ++ ("%%%error".toList ++ (equals ++ rest)))) success =
      "code:".toList ++ (a ++ ("%%%error".toList ++ (equals ++ arg rest success))) := by
  have hcode : '%' ∉ "code:".toList := by decide
  rw [arg_append hcode, arg_append ha]
  rcases hequals with rfl | rfl
  · have hbreaks := @arg_append_breaks '=' breaks_equals "%%%error".toList rfl rest success
    exact congrArg (fun text => "code:".toList ++ (a ++ text)) hbreaks
  · have hbreaks := @arg_append_breaks '=' breaks_equals "%%%error=".toList rfl rest success
    exact congrArg (fun text => "code:".toList ++ (a ++ text)) hbreaks

theorem arg_success (success : QString) :
    arg "%%%success==%3".toList success = "%%%success==".toList ++ success := by
  have hlast : arg "%%%success==%3".toList success = "%%%success==".toList ++ (success ++ []) := rfl
  rw [hlast, List.append_nil]

theorem arg_arg_arg_format (hequals : equals = "=".toList ∨ equals = "==".toList) (ha : '%' ∉ a)
    (herror : '%' ∉ error) (success : QString) :
    arg (arg (arg (format equals) a) error) success =
      "code:".toList ++
        (a ++ ("%%%error".toList ++ (equals ++ (error ++ ("%%%success==".toList ++ success))))) := by
  rw [arg_arg_format hequals ha, arg_error hequals ha, arg_append herror, arg_success]

theorem replyText_eq (code : Int) (error success : QString) :
    "code:".toList ++ (number code ++ ("%%%error".toList ++ ("==".toList ++
      (error ++ ("%%%success==".toList ++ success))))) = replyText code error success := rfl

theorem replyFormat_eq : replyFormat = format "==".toList := rfl

theorem ssIpFormat_eq : ssIpFormat = format "=".toList := rfl

/-! ## The answer to a refused message -/

variable {before msg : QString}

/-- The markers of the message are filled with nothing, if they are the lowest that are left. -/
theorem errorReply_eq (hbefore : '%' ∉ before) (msg : QString) :
    errorReply (before ++ "\"%1\"".toList) msg =
      "code:".toList ++ (number 9 ++ ("%%%error".toList ++ ("==".toList ++ (before ++
        '"' :: (fill (markers msg ++ [3]).min? [] msg ++
          '"' :: fill (markers msg ++ [3]).min? [] "%%%success==%3".toList))))) := by
  have hsign := percent_notMem_number (sdleLastErr + 1)
  have htext : arg (before ++ "\"%1\"".toList) msg = before ++ '"' :: (msg ++ ['"']) := by
    rw [arg_append hbefore]
    rfl
  have hrest : before ++ '"' :: (msg ++ ['"']) ++ "%%%success==%3".toList =
      before ++ '"' :: (msg ++ '"' :: "%%%success==%3".toList) := by
    simp
  have hmarkers : markers ('"' :: (msg ++ '"' :: "%%%success==%3".toList)) = markers msg ++ [3] := by
    have hquote := markers_append_breaks breaks_quote [] (msg ++ '"' :: "%%%success==%3".toList)
    rw [List.nil_append] at hquote
    rw [hquote, markers_append_breaks breaks_quote]
    rfl
  have hfill : arg ('"' :: (msg ++ '"' :: "%%%success==%3".toList)) [] =
      '"' :: (fill (markers msg ++ [3]).min? [] msg ++
        '"' :: fill (markers msg ++ [3]).min? [] "%%%success==%3".toList) := by
    have hquote := fill_append_breaks breaks_quote (markers msg ++ [3]).min? [] []
      (msg ++ '"' :: "%%%success==%3".toList)
    rw [List.nil_append] at hquote
    rw [arg_eq_fill, hmarkers, hquote, fill_append_breaks breaks_quote]
    rfl
  rw [errorReply, htext, replyFormat_eq, arg_arg_format (Or.inr rfl) hsign, arg_error (Or.inr rfl) hsign,
    hrest, arg_append hbefore, hfill]
  rfl

/-- The lowest marker is that of the format, unless the message has one that is as low. -/
theorem lowest_cases (numbers : List Nat) :
    ((∀ number ∈ numbers, 3 < number) ∧ (numbers ++ [3]).min? = some 3) ∨
      ∃ lowest ∈ numbers, lowest ≤ 3 ∧ (numbers ++ [3]).min? = some lowest := by
  by_cases hhigh : ∀ number ∈ numbers, 3 < number
  · left
    refine ⟨hhigh, ?_⟩
    rw [List.min?_eq_some_iff]
    refine ⟨List.mem_append_right _ (List.mem_singleton_self 3), ?_⟩
    intro number hmem
    rcases List.mem_append.mp hmem with hnumber | hlast
    · exact Nat.le_of_lt (hhigh number hnumber)
    · exact Nat.le_of_eq (List.mem_singleton.mp hlast).symm
  · right
    rw [not_forall₂] at hhigh
    obtain ⟨number, hnumber, hlow⟩ := hhigh
    obtain ⟨lowest, hlowest⟩ : ∃ lowest, (numbers ++ [3]).min? = some lowest :=
      Option.isSome_iff_exists.mp (List.isSome_min?_of_mem (List.mem_append_left [3] hnumber))
    obtain ⟨hmem, hleast⟩ := List.min?_eq_some_iff.mp hlowest
    have hle := hleast number (List.mem_append_left [3] hnumber)
    rcases List.mem_append.mp hmem with hown | hlast
    · exact ⟨lowest, hown, by omega, hlowest⟩
    · have hequal : number = lowest := by
        rw [List.mem_singleton.mp hlast] at hle ⊢
        omega
      exact ⟨lowest, hequal ▸ hnumber, by omega, hlowest⟩

theorem errorReply_of_high (hbefore : '%' ∉ before) (hhigh : ∀ number ∈ markers msg, 3 < number)
    (hlowest : (markers msg ++ [3]).min? = some 3) :
    errorReply (before ++ "\"%1\"".toList) msg =
      replyText 9 (before ++ '"' :: (msg ++ ['"'])) [] := by
  have hkept : fill (some 3) [] msg = msg := by
    apply fill_of_notMem
    intro number hmem heq
    have hlt := hhigh number hmem
    rw [← Option.some.inj heq] at hlt
    exact Nat.lt_irrefl 3 hlt
  have hfilled : fill (some 3) [] "%%%success==%3".toList = "%%%success==".toList := rfl
  rw [errorReply_eq hbefore, hlowest, hkept, hfilled, ← replyText_eq]
  simp

theorem errorReply_ne (hbefore : '%' ∉ before) {error : QString} {lowest : Nat}
    (hmarker : lowest ∈ markers msg) (hlowest : (markers msg ++ [3]).min? = some lowest)
    (hmsg : msg <:+: error) (code : Int) :
    errorReply (before ++ "\"%1\"".toList) msg ≠ replyText code error [] := by
  intro hreply
  rw [errorReply_eq hbefore, hlowest] at hreply
  by_cases hthree : lowest = 3
  · -- the markers of the message went out, and their percent signs with them
    subst hthree
    have hfilled : fill (some 3) [] "%%%success==%3".toList = "%%%success==".toList := rfl
    have hcount := congrArg (List.count '%') hreply
    have hless := count_fill_lt hmarker
    have hsub := hmsg.sublist.count_le '%'
    rw [hfilled, ← replyText_eq] at hcount
    simp [List.count_eq_zero_of_not_mem (percent_notMem_number _),
      List.count_eq_zero_of_not_mem hbefore] at hcount
    omega
  · -- the marker of the format is left
    have hkept : fill (some lowest) [] "%%%success==%3".toList = "%%%success==%3".toList := by
      apply fill_of_notMem
      intro other hother heq
      have hmarkers : markers "%%%success==%3".toList = [3] := rfl
      rw [hmarkers, List.mem_singleton] at hother
      exact hthree ((Option.some.inj heq).trans hother)
    have hlast := congrArg List.getLast? hreply
    rw [hkept, ← replyText_eq] at hlast
    simp [List.getLast?_append, List.getLast?_cons] at hlast

/-- The reply is in form and has the message, if no marker of the message is filled. -/
theorem errorReply_iff (hbefore : '%' ∉ before) (msg : QString) :
    (∃ code error, msg <:+: error ∧
        errorReply (before ++ "\"%1\"".toList) msg = replyText code error []) ↔
      ∀ number ∈ markers msg, 3 < number := by
  rcases lowest_cases (markers msg) with ⟨hhigh, hlowest⟩ | ⟨lowest, hmarker, hlow, hlowest⟩
  · refine iff_of_true ⟨9, before ++ '"' :: (msg ++ ['"']), ?_, ?_⟩ hhigh
    · exact (List.prefix_append msg ['"']).isInfix.trans
        ((List.suffix_cons '"' (msg ++ ['"'])).trans (List.suffix_append before _)).isInfix
    · exact errorReply_of_high hbefore hhigh hlowest
  · refine iff_of_false ?_ fun hhigh => ?_
    · rintro ⟨code, error, hmsg, hreply⟩
      exact errorReply_ne hbefore hmarker hlowest hmsg code hreply
    · have hlt := hhigh lowest hmarker
      omega

variable {world : ServerWorld} {client : Client}

theorem run_of_refused (world : ServerWorld) (client : Client) (h : Refused msg) :
    ∃ before, '%' ∉ before ∧ (chosenHandler msg).run world msg client =
      [.sendTextMessage client (errorReply (before ++ "\"%1\"".toList) msg)] := by
  have hcontainer (mark : QString) (offset : Nat)
      (action : QString → QString → Client → ServerAction Client)
      (hargs : (commandArgs mark offset msg).length ≠ 3) :
      handleContainer mark offset action msg client =
        [.sendTextMessage client (errorReply ("Wrong command ".toList ++ "\"%1\"".toList) msg)] := by
    rw [handleContainer]
    split
    · rename_i heq
      rw [heq] at hargs
      exact absurd rfl hargs
    · rfl
  rcases h with hunknown | ⟨hssh, hargs⟩ | ⟨hdesktop, hargs⟩ | ⟨hcc, hargs⟩
  · rw [hunknown]
    exact ⟨"Unknown command ".toList, by decide, rfl⟩
  · rw [hssh]
    exact ⟨"Wrong command ".toList, by decide, hcontainer _ _ _ hargs⟩
  · rw [hdesktop]
    exact ⟨"Wrong command ".toList, by decide, hcontainer _ _ _ hargs⟩
  · rw [hcc]
    exact ⟨"Wrong command ".toList, by decide, hcontainer _ _ _ hargs⟩

/-! ## The address of the resource host -/

/-- No text of an error begins with an equals sign. -/
theorem scweErrorToStr_plain (err : SystemCallWrapperError) :
    '%' ∉ scweErrorToStr err ∧ (scweErrorToStr err).head? ≠ some '=' := by
  cases err <;> decide

/-- There is one equals sign behind `error`, where two belong. -/
theorem ssIpReply_ne (world : ServerWorld) (code : Int) (error success : QString) :
    ssIpReply world ≠ replyText code error success := by
  have hreply (sign : Int) (text found : QString) (htext : '%' ∉ text) (hhead : text.head? ≠ some '=') :
      arg (arg (arg ssIpFormat (number sign)) text) found ≠ replyText code error success := by
    intro heq
    have hdrop (n : Int) (rest : QString) :
        (number n ++ '%' :: rest).dropWhile (fun c => decide (c ≠ '%')) = '%' :: rest := by
      rw [List.dropWhile_append_of_pos, List.dropWhile_cons_of_neg (by decide)]
      intro c hc
      rw [decide_eq_true_eq]
      rintro rfl
      exact percent_notMem_number n hc
    rw [ssIpFormat_eq, arg_arg_arg_format (Or.inl rfl) (percent_notMem_number sign) htext, ← replyText_eq] at heq
    have hrest := congrArg (List.dropWhile fun c => decide (c ≠ '%')) (List.append_cancel_left heq)
    have hbehind : "%%%error".toList ++ ("=".toList ++ (text ++ ("%%%success==".toList ++ found))) =
        "%%%error==".toList ++ (error ++ ("%%%success==".toList ++ success)) :=
      ((hdrop sign _).symm.trans hrest).trans (hdrop code _)
    cases text with
    | nil => simp at hbehind
    | cons c text =>
        simp only [List.head?_cons, ne_eq, Option.some.injEq] at hhead
        simp at hbehind
        exact hhead hbehind.1
  have herror := scweErrorToStr_plain world.err
  rw [ssIpReply]
  split
  · exact hreply _ _ _ List.not_mem_nil (Option.some_ne_none '=').symm
  · exact hreply _ _ _ herror.1 herror.2

/-! ## The end of a command -/

theorem percent_notMem_lstErrStr : ∀ text ∈ lstErrStr, '%' ∉ text := by
  have hplain {chars : List Char} (h : '%' ∉ chars) : '%' ∉ (String.ofList chars).toList := by
    rw [String.toList_ofList]
    exact h
  have htwo {first second : List Char} (h : '%' ∉ first) (h' : '%' ∉ second) :
      '%' ∉ (String.ofList first).toList ++ (String.ofList second).toList :=
    List.not_mem_append (hplain h) (hplain h')
  refine List.forall_mem_cons.mpr ⟨hplain (by decide), ?_⟩
  refine List.forall_mem_cons.mpr ⟨htwo (by decide) (by decide), ?_⟩
  refine List.forall_mem_cons.mpr ⟨htwo (by decide) (by decide), ?_⟩
  refine List.forall_mem_cons.mpr
    ⟨List.not_mem_append (htwo (by decide) (by decide)) (hplain (by decide)), ?_⟩
  refine List.forall_mem_cons.mpr ⟨htwo (by decide) (by decide), ?_⟩
  refine List.forall_mem_cons.mpr ⟨htwo (by decide) (by decide), ?_⟩
  refine List.forall_mem_cons.mpr ⟨htwo (by decide) (by decide), ?_⟩
  exact List.forall_mem_singleton.mpr (htwo (by decide) (by decide))

theorem sshDesktopLaunchErrToStr_eq_some {err : Int} (h : 0 ≤ err.tmod sdleLastErr) :
    ∃ text, sshDesktopLaunchErrToStr err = some text ∧ '%' ∉ text := by
  have hlt : err.tmod sdleLastErr < 8 := Int.tmod_lt_of_pos err (by decide)
  have hindex : (err.tmod sdleLastErr).toNat < lstErrStr.length := by
    have hlength : lstErrStr.length = 8 := rfl
    omega
  refine ⟨lstErrStr[(err.tmod sdleLastErr).toNat], ?_, percent_notMem_lstErrStr _ (List.getElem_mem hindex)⟩
  rw [sshDesktopLaunchErrToStr, if_neg (Int.not_lt.mpr h), List.getElem?_eq_getElem hindex]

/-- The text of a result is in form whenever there is one. -/
theorem finishedReply_cases (result : Int) :
    0 ≤ result.tmod sdleLastErr ∧
        (∃ error success, finishedReply result = some (replyText result error success)) ∨
      ¬ 0 ≤ result.tmod sdleLastErr ∧ finishedReply result = none := by
  have hsign := percent_notMem_number result
  by_cases hindex : 0 ≤ result.tmod sdleLastErr
  · obtain ⟨text, htext, hpercent⟩ := sshDesktopLaunchErrToStr_eq_some hindex
    refine Or.inl ⟨hindex, ?_⟩
    rw [finishedReply, htext, replyFormat_eq]
    by_cases hzero : result = 0
    · refine ⟨[], text, ?_⟩
      rw [if_pos hzero, if_pos hzero, Option.bind_some, Option.map_some,
        arg_arg_arg_format (Or.inr rfl) hsign List.not_mem_nil, replyText_eq]
    · refine ⟨text, [], ?_⟩
      rw [if_neg hzero, if_neg hzero, Option.bind_some, Option.map_some,
        arg_arg_arg_format (Or.inr rfl) hsign hpercent, replyText_eq]
  · have hzero : result ≠ 0 := by
      rintro rfl
      exact hindex (Int.le_refl 0)
    refine Or.inr ⟨hindex, ?_⟩
    rw [finishedReply, if_neg hzero, sshDesktopLaunchErrToStr, if_pos (Int.not_le.mp hindex),
      Option.bind_none]

theorem containerFinished_iff (result : Int) (client : Option Client) :
    (∃ actions, containerFinished result client = some actions ∧
      ∀ client text, .sendTextMessage client text ∈ actions →
        ∃ code error success, text = replyText code error success) ↔
      0 ≤ result.tmod sdleLastErr := by
  rcases finishedReply_cases result with ⟨hindex, error, success, hreply⟩ | ⟨hindex, hreply⟩
  · refine iff_of_true ⟨_, by rw [containerFinished, hreply, Option.map_some], ?_⟩ hindex
    intro receiver text hmem
    cases client with
    | none => exact absurd hmem List.not_mem_nil
    | some client =>
        rw [Option.elim_some, List.mem_singleton, ServerAction.sendTextMessage.injEq] at hmem
        exact ⟨result, error, success, hmem.2⟩
  · refine iff_of_false ?_ hindex
    rintro ⟨actions, hactions, -⟩
    rw [containerFinished, hreply, Option.map_none] at hactions
    exact absurd hactions.symm (Option.some_ne_none actions)

theorem message_right_iff (world : ServerWorld) (client : Client) (msg : QString) :
    ((ServerEvent.textMessage (some client) msg).Right world) ↔
      (Refused msg → ∀ number ∈ markers msg, 3 < number) ∧ chosenHandler msg ≠ .ssIp := by
  have hrefused : (Refused msg → ∃ code error, msg <:+: error ∧
      some ((chosenHandler msg).run world msg client) =
        some [.sendTextMessage client (replyText code error [])]) ↔
      (Refused msg → ∀ number ∈ markers msg, 3 < number) := by
    apply imp_congr_right
    intro h
    obtain ⟨before, hbefore, hrun⟩ := run_of_refused world client h
    rw [hrun, ← errorReply_iff hbefore msg]
    simp only [Option.some.injEq, List.cons.injEq, ServerAction.sendTextMessage.injEq, true_and, and_true]
  have hip : (chosenHandler msg = .ssIp → ∃ code error success,
      some ((chosenHandler msg).run world msg client) =
        some [.sendTextMessage client (replyText code error success)]) ↔
      chosenHandler msg ≠ .ssIp := by
    apply imp_congr_right
    intro h
    rw [h, iff_false]
    rintro ⟨code, error, success, hrun⟩
    rw [Option.some.injEq, Handler.run, handleSsIp, List.cons.injEq, ServerAction.sendTextMessage.injEq]
      at hrun
    exact ssIpReply_ne world code error success hrun.1.2
  rw [← hrefused, ← hip]
  constructor
  · intro h
    exact h client rfl
  · rintro h other hother
    rw [← Option.some.inj hother]
    exact h

/-- The replies of an event are in form when it is good. -/
theorem replies_right_iff (world : ServerWorld) (event : ServerEvent Client) :
    event.Right world ↔ event.Good := by
  cases event with
  | sshFinished result client => exact containerFinished_iff result client
  | desktopFinished result client => exact containerFinished_iff result client
  | textMessage sender msg =>
      cases sender with
      | none => exact iff_of_true (fun client heq => absurd heq.symm (Option.some_ne_none client)) trivial
      | some client => exact message_right_iff world client msg

/-- In the answer to an unknown command that is called like a marker, its name is lost. -/
theorem not_right_marker :
    ¬ ∀ (world : ServerWorld) (event : ServerEvent Nat), event.Right world := by
  intro h
  have hright := (message_right_iff ⟨[], .success, []⟩ 0 "%1".toList).mp
    (h ⟨[], .success, []⟩ (.textMessage (some 0) "%1".toList))
  exact absurd (hright.1 (Or.inl (by decide)) 1 (by decide)) (by decide)

end SubutaiTray.WebSocket
