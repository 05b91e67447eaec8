import SoftBts.CommandTree
import SoftBts.Lib.Terminal

/-! The commands that softbts has (`cmd_init`, `vty_init`): the texts of each node's commands and what
they do to the level of a session, to the configure lock and to the passwords. What the others print
and do to the rest of the host is a parameter. -/

namespace SoftBts

open Terminal

variable {H : Type}

/-! ### What the commands do -/

/-- The functions of the commands. -/
inductive Defun where
  | showVersion
  | configList
  | configExit
  | configHelp
  | enable
  | configTerminalLength
  | configTerminalNoLength
  | doEcho
  | configEnd
  | configWriteTerminal
  | configWriteFile
  | disable
  | configTerminal
  | showStartupConfig
  | configHostname
  | configNoHostname
  | configPassword
  | configEnablePassword
  | noConfigEnablePassword
  | bannerMotdDefault
  | bannerMotdFile
  | noBannerMotd
  | serviceTerminalLength
  | noServiceTerminalLength
  | configWho
  | lineVty
  | vtyLogin
  | noVtyLogin
  | serviceAdvancedVty
  | noServiceAdvancedVty
  | terminalMonitor
  | terminalNoMonitor
  | showHistory
  deriving DecidableEq

/-- A command that sees the session and changes the rest of the host only. -/
abbrev QuietFunc (H : Type) := List (List UInt8) → History → Seat H → H × CmdReturn × List UInt8

def QuietFunc.run (f : QuietFunc H) : CmdFunc H := fun argv history s =>
  let r := f argv history s
  ({ s with host := { s.host with other := r.1 } }, r.2)

/-- A command that sets something of the host. -/
def hostCmd (set : Host H → Host H) : CmdFunc H := fun _ _ s =>
  ({ s with host := set s.host }, .success, [])

/-- `isalnum` in the C locale -/
def isalnum (c : UInt8) : Bool :=
  (0x30 ≤ c && c ≤ 0x39) || (0x41 ≤ c && c ≤ 0x5a) || (0x61 ≤ c && c ≤ 0x7a)

/-- The two commands that set a password, `plain` or `encrypted`. -/
def passwordFunc (plain encrypted : List UInt8 → Host H → Host H) : CmdFunc H := fun argv _ s =>
  match argv with
  | [] => (s, .warning, ascii "Please specify password." ++ vtyNewline)
  | [type, word] =>
      if type.head? = some 0x38 then ({ s with host := encrypted word s.host }, .success, [])
      else (s, .warning, ascii "Unknown encryption type." ++ vtyNewline)
  | word :: _ =>
      if word.head?.any isalnum then ({ s with host := plain word s.host }, .success, [])
      else (s, .warning, ascii "Please specify string starting with alphanumeric" ++ vtyNewline)

/-- `config_password` -/
def configPassword : CmdFunc H :=
  passwordFunc (fun word host => { host with password := some word })
    (fun word host => { host with password := none, passwordEncrypt := some word })

/-- `config_enable_password` -/
def configEnablePassword : CmdFunc H :=
  passwordFunc (fun word host => { host with enable := some word })
    (fun word host => { host with enable := none, enableEncrypt := some word })

def noConfigEnablePassword : CmdFunc H :=
  hostCmd fun host => { host with enable := none, enableEncrypt := none }

def vtyLogin : CmdFunc H := hostCmd fun host => { host with noPasswordCheck := false }

def noVtyLogin : CmdFunc H := hostCmd fun host => { host with noPasswordCheck := true }

def serviceAdvancedVty : CmdFunc H := hostCmd fun host => { host with advanced := true }

def noServiceAdvancedVty : CmdFunc H := hostCmd fun host => { host with advanced := false }

/-- What a function does; `rest` is what the others do. -/
def Defun.run (rest : Defun → QuietFunc H) : Defun → CmdFunc H
  | .configExit => exitCmd
  | .configEnd => endCmd
  | .enable => enableCmd
  | .disable => disableCmd
  | .configTerminal => SoftBts.configTerminal
  | .lineVty => SoftBts.lineVty
  | .configPassword => SoftBts.configPassword
  | .configEnablePassword => SoftBts.configEnablePassword
  | .noConfigEnablePassword => SoftBts.noConfigEnablePassword
  | .vtyLogin => SoftBts.vtyLogin
  | .noVtyLogin => SoftBts.noVtyLogin
  | .serviceAdvancedVty => SoftBts.serviceAdvancedVty
  | .noServiceAdvancedVty => SoftBts.noServiceAdvancedVty
  | f => (rest f).run

/-! ### Their texts -/

/-- `struct cmd_element`, before it is installed. -/
structure CmdText where
  string : String
  doc : String
  func : Defun

def showStr : String := "Show running system information\n"

def noStr : String := "Negate a command or set its defaults\n"

def showVersionCmd : CmdText :=
  ⟨"show version",
    showStr ++
    "Displays program version\n",
    .showVersion⟩

def configListCmd : CmdText := ⟨"list", "Print command list\n", .configList⟩

def configExitCmd : CmdText :=
  ⟨"exit",
    "Exit current mode and down to previous mode\n",
    .configExit⟩

def configQuitCmd : CmdText :=
  ⟨"quit",
    "Exit current mode and down to previous mode\n",
    .configExit⟩

def configHelpCmd : CmdText := ⟨"help", "Description of the interactive help system\n", .configHelp⟩

def configEnableCmd : CmdText := ⟨"enable", "Turn on privileged mode command\n", .enable⟩

def configTerminalLengthCmd : CmdText :=
  ⟨"terminal length <0-512>",
    "Set terminal line parameters\nSet number of lines on a screen\n" ++
    "Number of lines on screen (0 for no pausing)\n",
    .configTerminalLength⟩

def configTerminalNoLengthCmd : CmdText :=
  ⟨"terminal no length",
    "Set terminal line parameters\n" ++
    noStr ++
    "Set number of lines on a screen\n",
    .configTerminalNoLength⟩

def echoCmd : CmdText :=
  ⟨"echo .MESSAGE",
    "Echo a message back to the vty\nThe message to echo\n",
    .doEcho⟩

def configEndCmd : CmdText := ⟨"end", "End current mode and change to enable mode.", .configEnd⟩

def configWriteTerminalCmd : CmdText :=
  ⟨"write terminal",
    "Write running configuration to memory, network, or terminal\nWrite to terminal\n",
    .configWriteTerminal⟩

def configWriteFileCmd : CmdText :=
  ⟨"write file",
    "Write running configuration to memory, network, or terminal\n" ++
    "Write to configuration file\n",
    .configWriteFile⟩

def configWriteMemoryCmd : CmdText :=
  ⟨"write memory",
    "Write running configuration to memory, network, or terminal\n" ++
    "Write configuration to the file (same as write file)\n",
    .configWriteFile⟩

def configWriteCmd : CmdText :=
  ⟨"write",
    "Write running configuration to memory, network, or terminal\n",
    .configWriteFile⟩

def showRunningConfigCmd : CmdText :=
  ⟨"show running-config",
    showStr ++
    "running configuration\n",
    .configWriteTerminal⟩

def configDisableCmd : CmdText := ⟨"disable", "Turn off privileged mode command\n", .disable⟩

def configTerminalCmd : CmdText :=
  ⟨"configure terminal",
    "Configuration from vty interface\nConfiguration terminal\n",
    .configTerminal⟩

def copyRunningconfigStartupconfigCmd : CmdText :=
  ⟨"copy running-config startup-config",
    "Copy configuration\nCopy running config to... \n" ++
    "Copy running config to startup config (same as write file)\n",
    .configWriteFile⟩

def showStartupConfigCmd : CmdText :=
  ⟨"show startup-config",
    showStr ++
    "Contentes of startup configuration\n",
    .showStartupConfig⟩

def hostnameCmd : CmdText :=
  ⟨"hostname WORD",
    "Set system's network name\nThis system's network name\n",
    .configHostname⟩

def noHostnameCmd : CmdText :=
  ⟨"no hostname [HOSTNAME]",
    noStr ++
    "Reset system's network name\nHost name of this router\n",
    .configNoHostname⟩

def passwordCmd : CmdText :=
  ⟨"password (8|) WORD",
    "Assign the terminal connection password\nSpecifies a HIDDEN password will follow\n" ++
    "dummy string \nThe HIDDEN line password string\n",
    .configPassword⟩

def passwordTextCmd : CmdText :=
  ⟨"password LINE",
    "Assign the terminal connection password\nThe UNENCRYPTED (cleartext) line password\n",
    .configPassword⟩

def enablePasswordCmd : CmdText :=
  ⟨"enable password (8|) WORD",
    "Modify enable password parameters\nAssign the privileged level password\n" ++
    "Specifies a HIDDEN password will follow\ndummy string \n" ++
    "The HIDDEN 'enable' password string\n",
    .configEnablePassword⟩

def enablePasswordTextCmd : CmdText :=
  ⟨"enable password LINE",
    "Modify enable password parameters\nAssign the privileged level password\n" ++
    "The UNENCRYPTED (cleartext) 'enable' password\n",
    .configEnablePassword⟩

def noEnablePasswordCmd : CmdText :=
  ⟨"no enable password",
    noStr ++
    "Modify enable password parameters\nAssign the privileged level password\n",
    .noConfigEnablePassword⟩

def bannerMotdDefaultCmd : CmdText :=
  ⟨"banner motd default",
    "Set banner string\nStrings for motd\nDefault string\n",
    .bannerMotdDefault⟩

def bannerMotdFileCmd : CmdText :=
  ⟨"banner motd file [FILE]",
    "Set banner\nBanner for motd\nBanner from a file\nFilename\n",
    .bannerMotdFile⟩

def noBannerMotdCmd : CmdText :=
  ⟨"no banner motd",
    noStr ++
    "Set banner string\nStrings for motd\n",
    .noBannerMotd⟩

def serviceTerminalLengthCmd : CmdText :=
  ⟨"service terminal-length <0-512>",
    "Set up miscellaneous service\nSystem wide terminal length configuration\n" ++
    "Number of lines of VTY (0 means no line control)\n",
    .serviceTerminalLength⟩

def noServiceTerminalLengthCmd : CmdText :=
  ⟨"no service terminal-length [<0-512>]",
    noStr ++
    "Set up miscellaneous service\nSystem wide terminal length configuration\n" ++
    "Number of lines of VTY (0 means no line control)\n",
    .noServiceTerminalLength⟩

def configWhoCmd : CmdText := ⟨"who", "Display who is on vty\n", .configWho⟩

def lineVtyCmd : CmdText := ⟨"line vty", "Configure a terminal line\nVirtual terminal\n", .lineVty⟩

def vtyLoginCmd : CmdText := ⟨"login", "Enable password checking\n", .vtyLogin⟩

def noVtyLoginCmd : CmdText :=
  ⟨"no login",
    noStr ++
    "Enable password checking\n",
    .noVtyLogin⟩

def serviceAdvancedVtyCmd : CmdText :=
  ⟨"service advanced-vty",
    "Set up miscellaneous service\nEnable advanced mode vty interface\n",
    .serviceAdvancedVty⟩

def noServiceAdvancedVtyCmd : CmdText :=
  ⟨"no service advanced-vty",
    noStr ++
    "Set up miscellaneous service\nEnable advanced mode vty interface\n",
    .noServiceAdvancedVty⟩

def terminalMonitorCmd : CmdText :=
  ⟨"terminal monitor",
    "Set terminal line parameters\nCopy debug output to the current terminal line\n",
    .terminalMonitor⟩

def terminalNoMonitorCmd : CmdText :=
  ⟨"terminal no monitor",
    "Set terminal line parameters\n" ++
    noStr ++
    "Copy debug output to the current terminal line\n",
    .terminalNoMonitor⟩

def showHistoryCmd : CmdText :=
  ⟨"show history",
    showStr ++
    "Display the session command history\n",
    .showHistory⟩

/-! ### The nodes -/

/-- `install_default` -/
def installDefault : List CmdText :=
  [configExitCmd, configQuitCmd, configEndCmd, configHelpCmd, configListCmd, configWriteTerminalCmd,
    configWriteFileCmd, configWriteMemoryCmd, configWriteCmd, showRunningConfigCmd]

/-- The nodes that are installed, with their commands in the order in which `cmd_init` and `vty_init`
install them. -/
def nodeCommands : NodeType → Option (List CmdText)
  | .auth => some []
  | .view => some
      [showVersionCmd, configListCmd, configExitCmd, configQuitCmd, configHelpCmd, configEnableCmd,
        configTerminalLengthCmd, configTerminalNoLengthCmd, echoCmd, configWhoCmd, showHistoryCmd]
  | .authEnable => some []
  | .enable => some (installDefault ++
      [configDisableCmd, configTerminalCmd, copyRunningconfigStartupconfigCmd, showStartupConfigCmd,
        showVersionCmd, configTerminalLengthCmd, configTerminalNoLengthCmd, echoCmd, configWhoCmd,
        terminalMonitorCmd, terminalNoMonitorCmd, showHistoryCmd])
  | .config => some (installDefault ++
      [hostnameCmd, noHostnameCmd, passwordCmd, passwordTextCmd, enablePasswordCmd,
        enablePasswordTextCmd, noEnablePasswordCmd, bannerMotdDefaultCmd, bannerMotdFileCmd,
        noBannerMotdCmd, serviceTerminalLengthCmd, noServiceTerminalLengthCmd, lineVtyCmd,
        serviceAdvancedVtyCmd, noServiceAdvancedVtyCmd, showHistoryCmd])
  | .vty => some (installDefault ++ [vtyLoginCmd, noVtyLoginCmd])
  | _ => none

/-- `install_element` of a command, when its text is in the notation. -/
def CmdText.install (rest : Defun → QuietFunc H) (c : CmdText) : Option (CmdElement (CmdFunc H)) :=
  (cmdMakeDescvec (ascii c.string) (ascii c.doc)).map fun strvec => ⟨c.func.run rest, strvec, false⟩

/-- The command tree behind `cmd_init` and `vty_init`. -/
def cmdInit (rest : Defun → QuietFunc H) : CmdTree H := fun n =>
  (nodeCommands n).map (List.filterMap (CmdText.install rest))

/-! ### What is installed -/

variable {rest : Defun → QuietFunc H}

/-- A command of the tree is one of the commands of its node. -/
theorem mem_cmdInit {n : NodeType} {v : List (CmdElement (CmdFunc H))} (hv : cmdInit rest n = some v)
    {e : CmdElement (CmdFunc H)} (he : e ∈ v) :
    ∃ cs, nodeCommands n = some cs ∧ ∃ c ∈ cs, e.func = c.func.run rest ∧
      cmdMakeDescvec (ascii c.string) (ascii c.doc) = some e.strvec := by
  obtain ⟨cs, hcs, rfl⟩ := Option.map_eq_some_iff.mp hv
  obtain ⟨c, hc, hinstall⟩ := List.mem_filterMap.mp he
  obtain ⟨strvec, hstrvec, rfl⟩ := Option.map_eq_some_iff.mp hinstall
  exact ⟨cs, hcs, c, hc, rfl, hstrvec⟩

/-- Which function may be at which node. -/
def Defun.level (n : NodeType) : Defun → Bool
  | .enable => n = .view
  | .disable | .configTerminal => n = .enable
  | .lineVty => n = .config
  | _ => true

theorem leavesLevel_quiet (f : QuietFunc H) : LeavesLevel f.run := fun _ _ _ => ⟨rfl, rfl, rfl⟩

theorem leavesLevel_host {set : Host H → Host H} (hset : ∀ host, (set host).vtyConfig = host.vtyConfig) :
    LeavesLevel (hostCmd set) := fun _ _ s => ⟨rfl, rfl, hset s.host⟩

theorem leavesLevel_password {plain encrypted : List UInt8 → Host H → Host H}
    (hplain : ∀ word host, (plain word host).vtyConfig = host.vtyConfig)
    (hencrypted : ∀ word host, (encrypted word host).vtyConfig = host.vtyConfig) :
    LeavesLevel (passwordFunc plain encrypted) := by
  intro argv history s
  unfold passwordFunc
  split
  · exact ⟨rfl, rfl, rfl⟩
  · split
    · exact ⟨rfl, rfl, hencrypted _ _⟩
    · exact ⟨rfl, rfl, rfl⟩
  · split
    · exact ⟨rfl, rfl, hplain _ _⟩
    · exact ⟨rfl, rfl, rfl⟩

/-- A function at its node keeps to the levels. -/
theorem Defun.level_command {n : NodeType} {f : Defun} (h : f.level n = true) :
    LevelCommand n (f.run rest) := by
  have hquiet : ∀ g : QuietFunc H, LevelCommand n g.run := fun g => .other (leavesLevel_quiet g)
  cases f with
  | configExit => exact .exit
  | configEnd => exact .endConfig
  | enable =>
      obtain rfl := of_decide_eq_true h
      exact .enable
  | disable =>
      obtain rfl := of_decide_eq_true h
      exact .disable
  | configTerminal =>
      obtain rfl := of_decide_eq_true h
      exact .configTerminal
  | lineVty =>
      obtain rfl := of_decide_eq_true h
      exact .lineVty
  | configPassword => exact .other (leavesLevel_password (fun _ _ => rfl) fun _ _ => rfl)
  | configEnablePassword => exact .other (leavesLevel_password (fun _ _ => rfl) fun _ _ => rfl)
  | noConfigEnablePassword => exact .other (leavesLevel_host fun _ => rfl)
  | vtyLogin => exact .other (leavesLevel_host fun _ => rfl)
  | noVtyLogin => exact .other (leavesLevel_host fun _ => rfl)
  | serviceAdvancedVty => exact .other (leavesLevel_host fun _ => rfl)
  | noServiceAdvancedVty => exact .other (leavesLevel_host fun _ => rfl)
  | _ => exact hquiet _

theorem nodeCommands_level : ∀ n, ∀ cs ∈ nodeCommands n, ∀ c ∈ cs, c.func.level n = true := by
  rintro (_ | _ | _ | _ | _ | _ | _ | _ | _ | _ | _ | _ | _ | _) <;> decide

/-- Their texts are printable, and the ones with a choice have no `.VARARG`. -/
def CmdText.Regular (c : CmdText) : Prop :=
  (∀ o ∈ ascii c.string, Printable o) ∧
    ((0x28 : UInt8) ∉ ascii c.string ∨ (0x2e : UInt8) ∉ ascii c.string)

instance (c : CmdText) : Decidable c.Regular := inferInstanceAs (Decidable (_ ∧ _))

theorem nodeCommands_regular : ∀ n, ∀ cs ∈ nodeCommands n, ∀ c ∈ cs, c.Regular := by
  rintro (_ | _ | _ | _ | _ | _ | _ | _ | _ | _ | _ | _ | _ | _) <;> decide

theorem CmdText.Regular.wellFormed {c : CmdText} (h : c.Regular) {e : CmdElement (CmdFunc H)}
    (he : cmdMakeDescvec (ascii c.string) (ascii c.doc) = some e.strvec) : e.WellFormed := by
  rintro ds hds ⟨desc, hdesc, hvararg⟩
  rcases h.2 with hopen | hdot
  · exact cmdMakeDescvec_plain hopen he hds
  · have hhead : desc.cmd.head? = some 0x2e := by simpa [cmdVararg] using hvararg
    exact absurd ((cmdMakeDescvec_part he hds hdesc).subset (List.mem_of_mem_head? hhead)) hdot

/-- The tree is as the sessions rely on it. -/
theorem cmdInit_installed (rest : Defun → QuietFunc H) : (cmdInit rest).Installed where
  nodes := by
    rintro (_ | _ | _ | _ | _ | _ | _ | _ | _ | _ | _ | _ | _ | _) h <;> first | rfl | cases h
  level n v hv e he := by
    obtain ⟨cs, hcs, c, hc, hfunc, -⟩ := mem_cmdInit hv he
    rw [hfunc]
    exact Defun.level_command (nodeCommands_level n cs hcs c hc)
  wellFormed n v hv e he := by
    obtain ⟨cs, hcs, c, hc, -, hstrvec⟩ := mem_cmdInit hv he
    exact (nodeCommands_regular n cs hcs c hc).wellFormed hstrvec

/-- The words of the tree can be shown. -/
def CmdTree.Printable (t : CmdTree H) : Prop :=
  ∀ n v, t n = some v → ∀ e ∈ v, ∀ ds ∈ e.strvec, ∀ desc ∈ ds, ∀ o ∈ desc.cmd, Terminal.Printable o

theorem cmdInit_printable (rest : Defun → QuietFunc H) : (cmdInit rest).Printable := by
  intro n v hv e he ds hds desc hdesc o ho
  obtain ⟨cs, hcs, c, hc, -, hstrvec⟩ := mem_cmdInit hv he
  exact (nodeCommands_regular n cs hcs c hc).1 o ((cmdMakeDescvec_part hstrvec hds hdesc).subset ho)

end SoftBts
