/-
The network input of `src/src/net`: `enet_poll` with all that it calls
(`enet.c`, `arp.c`, `ip.c`, `icmp.c`, `udp.c`, `tcp.c`), as programs that run
step by step on the buffers and the rest of the network's variables.

`enet_poll` can be called again while a packet is being processed: an answer of
`tcp_input` may need the address of the other side, and `arp_request` polls until
it has it. Loops that poll are procedures here, so that each can be called from
the other.

From outside come the frames that the driver delivers, what the rest of the
program does between two calls of `enet_poll` (it may change all the variables
here but those of the buffers), the time, which connections have been idle for
too long, and what the web server does with a request, which touches the buffers
by `tcp_sendto` and by polling only. `tcp_sendto` ends without a `return` after
it has called `tcp_output`; what its caller gets is from outside too.

What is written into the packets that are sent is left out: nothing here reads
it, and the buffer is free again when the packet has been given to the driver.
What a buffer holds behind a frame that came is arbitrary, as `Frame` has it.
-/
import CsBoot.Lib.Proc
import CsBoot.Lib.SkipBlocks
import CsBoot.Net.NetBuf
import CsBoot.Net.Tcp
import CsBoot.Net.Udp

set_option autoImplicit false

namespace CsBoot.Net

open Proc SkipBlocks

/-! ## Constants -/

def ETH_TYPE_IP : ℕ := 0x800
def ETH_TYPE_ARP : ℕ := 0x806
def ARP_HW_ETHER : ℕ := 1
def ARP_REQUEST : ℕ := 1
def ARP_REPLY : ℕ := 2
/-- `sizeof(arp_header_t) + ETH_HDR_SIZE` -/
def ARP_PKT_SIZE : ℕ := 28 + ETH_HDR_SIZE
def ARP_MAX_CACHE_NUM : ℕ := 4
def ICMP_TYPE_ECHOREPLY : ℕ := 0
def ICMP_TYPE_ECHOREQUEST : ℕ := 8

namespace Frame

variable (f : Frame)

def arp_hw_type : ℕ := be16 f.data ETH_HDR_SIZE
def arp_protocol : ℕ := be16 f.data (ETH_HDR_SIZE + 2)
def arp_opcode : ℕ := be16 f.data (ETH_HDR_SIZE + 6)
def arp_sender_mac : List UInt8 := firstBytes (fun i => f.data (ETH_HDR_SIZE + 8 + i)) ETH_MAC_SIZE
def arp_sender_ip : ℕ := be32 f.data (ETH_HDR_SIZE + 14)
def arp_target_ip : ℕ := be32 f.data (ETH_HDR_SIZE + 24)

def icmp_type : ℕ := (f.data (ETH_HDR_SIZE + IP_HDR_SIZE)).toNat
def icmp_code : ℕ := (f.data (ETH_HDR_SIZE + IP_HDR_SIZE + 1)).toNat
def icmp_ident : ℕ := be16 f.data (ETH_HDR_SIZE + IP_HDR_SIZE + 4)

end Frame

/-! ## The machine -/

structure ARP_ENTRY_T where
  ip_addr : ℕ
  mac_addr : List UInt8
  used : Bool

/-- The variables of the network but for the buffers. `board_support_web` says
how the program was built; the only ARP listener there is is
`arp_reply_listener`, and `icmp_listen_arg` is what the argument of the ICMP
listener points to. -/
structure NetVars where
  board_support_web : Bool
  enet_initialized : Bool
  web_on : ℤ
  my_ip_addr : ℕ
  my_ip_netmask : ℕ
  my_ip_gateway : ℕ
  arp_cache_tbl : ℕ → ARP_ENTRY_T
  arp_cache_num : ℤ
  arp_listen_handler : Bool
  icmp_listen_handler : Bool
  icmp_listen_arg : ℤ
  udp_sock : UDP_SOCK_T
  tcp_socks : ℕ → TCP_SOCK_T

structure NetState where
  bufs : NetBufs
  vars : NetVars

/-- A step of the web server. -/
inductive HttpStep
  | done
  | change (g : TCP_SOCK_T → TCP_SOCK_T)
  | send (len : ℤ)
  | poll

inductive NetInput
  /-- The driver has a frame. -/
  | frame (f : Frame)
  /-- `enet_poll` is called next. -/
  | poll
  /-- The program changes the variables. -/
  | change (g : NetVars → NetVars)
  | time_over
  /-- Connections that the timer has found idle for too long. -/
  | expired (e : ℕ → Bool)
  | http (a : HttpStep)
  /-- `tcp_sendto` returns a negative number. -/
  | negative
  | none

inductive NetLabel
  | top
  | deliver
  | ip_input (b : ℕ)
  | tcp_input (b : ℕ)
  | net_free_buf (b : ℕ)
  | net_put_rcvq (b : ℕ)
  | net_done_buf (b : ℕ)
  | other
deriving DecidableEq

inductive NetProc
  | main
  | enet_poll
  | deliver
  | poll_rcvq
  | arp_request (ipaddr : ℕ) (retry : ℕ)
  | arp_wait (ipaddr : ℕ) (retry : ℕ)
  | rx_http_packet (i : ℕ)

/-- What a procedure returns is an entry of the ARP cache, or nothing. -/
def NetSig : Sig := ⟨NetState, NetInput, NetLabel, NetProc, Option ℕ⟩

abbrev NetProg (α : Type) := Prog NetSig α

/-- A step on the buffers. -/
def on_bufs {α : Type} (l : NetLabel) (f : NetBufs → α × NetBufs) : NetProg α :=
  Prog.step (S := NetSig) l fun _ s => ((f s.bufs).1, { s with bufs := (f s.bufs).2 })

/-- A step on the other variables, which may look at the frames in the buffers. -/
def on_vars {α : Type} (l : NetLabel) (f : NetInput → NetState → α × NetVars) : NetProg α :=
  Prog.step (S := NetSig) l fun i s => ((f i s).1, { s with vars := (f i s).2 })

/-- Read the variables. -/
def look {α : Type} (l : NetLabel) (f : NetState → α) : NetProg α :=
  on_vars l fun _ s => (f s, s.vars)

/-- Read what comes from outside. -/
def input {α : Type} (f : NetInput → α) : NetProg α := on_vars .other fun i s => (f i, s.vars)

def set_vars (f : NetVars → NetVars) : NetProg Unit := on_vars .other fun _ s => ((), f s.vars)

def alloc : NetProg (Option ℕ) := on_bufs .other net_alloc_buf
def free (b : ℕ) : NetProg Unit := on_bufs (.net_free_buf b) fun s => ((), net_free_buf b s)
def put_rcvq (b : ℕ) : NetProg Unit := on_bufs (.net_put_rcvq b) fun s => ((), net_put_rcvq b s)
def get_rcvq : NetProg (Option ℕ) := on_bufs .other net_get_rcvq
def peek_rcvq : NetProg ℤ := on_bufs .other fun s => (net_peek_rcvq s, s)
def fill_buf (b : ℕ) (f : Frame) : NetProg Unit := on_bufs .other fun s => ((), net_fill_buf b f s)
def done_buf (b : ℕ) : NetProg Unit := on_bufs (.net_done_buf b) fun s => ((), net_done_buf b s)

/-! ## `enet.c` -/

/-- `enet_input` -/
def enet_input (f : Frame) : NetProg Unit :=
  if NETBUF_SIZE < f.len ∨ f.len < ETH_HDR_SIZE then pure ()
  else do
    match ← alloc with
    | some b => do
      fill_buf b f
      put_rcvq b
    | none => pure ()

/-- `enet_send`. The buffer is freed whether or not the driver can send. -/
def enet_send (b : ℕ) : NetProg Unit := free b

/-- `ip_output` -/
def ip_output (b : ℕ) : NetProg Unit := enet_send b

/-! ## `arp.c` -/

/-- `arp_chk_entry` -/
def arp_chk_entry (v : NetVars) (ipaddr : ℕ) : Option ℕ :=
  (List.range ARP_MAX_CACHE_NUM).find? fun i =>
    (v.arp_cache_tbl i).used && (v.arp_cache_tbl i).ip_addr = ipaddr

/-- `arp_flush_cache` -/
def arp_flush_cache (v : NetVars) : NetVars :=
  { v with
    arp_cache_tbl := fun i =>
      if i < ARP_MAX_CACHE_NUM then { v.arp_cache_tbl i with used := false } else v.arp_cache_tbl i
    arp_cache_num := 0 }

/-- The cache after `arp_reply_listener`: the address is there already, or goes
into the first entry that is not used. -/
def arp_learn (f : Frame) (v : NetVars) : NetVars :=
  match arp_chk_entry v f.arp_sender_ip with
  | some i =>
    { v with
      arp_cache_tbl := Function.update v.arp_cache_tbl i
        { v.arp_cache_tbl i with mac_addr := f.arp_sender_mac } }
  | none =>
    match (List.range ARP_MAX_CACHE_NUM).find? fun i => !(v.arp_cache_tbl i).used with
    | some i =>
      { v with
        arp_cache_tbl := Function.update v.arp_cache_tbl i ⟨f.arp_sender_ip, f.arp_sender_mac, true⟩
        arp_cache_num := v.arp_cache_num + 1 }
    | none => v

/-- `arp_reply_listener` -/
def arp_reply_listener (b : ℕ) : NetProg Unit := do
  on_vars .other fun _ s => ((), arp_learn (s.bufs.frame b) s.vars)
  free b

/-- `arp_input` -/
def arp_input (b : ℕ) : NetProg Unit := do
  let s ← look .other id
  let arp := s.bufs.frame b
  if arp.len < ARP_PKT_SIZE then free b
  else if arp.arp_hw_type ≠ ARP_HW_ETHER ∨ arp.arp_protocol ≠ ETH_TYPE_IP then free b
  else if arp.arp_target_ip = s.vars.my_ip_addr then
    if arp.arp_opcode = ARP_REQUEST then enet_send b
    else if arp.arp_opcode = ARP_REPLY ∧ s.vars.arp_listen_handler = true then arp_reply_listener b
    else free b
  else free b

/-- `ip_is_local_net` -/
def ip_is_local_net (v : NetVars) (addr : ℕ) : Bool :=
  (v.my_ip_addr ^^^ addr) &&& v.my_ip_netmask = 0

/-- `arp_lookup` -/
def arp_lookup (ipaddr : ℕ) : NetProg (Option ℕ) := do
  let v ← look .other NetState.vars
  match arp_chk_entry v ipaddr with
  | some i => pure (some i)
  | none => do
    set_vars fun v => if v.arp_cache_num = ARP_MAX_CACHE_NUM then arp_flush_cache v else v
    Prog.run (S := NetSig)
      (.arp_request (if ip_is_local_net v ipaddr then ipaddr else v.my_ip_gateway) 3)

/-- The loop of `arp_request`, with the tries that are left. -/
def arp_request (ipaddr : ℕ) : ℕ → NetProg (Option ℕ)
  | 0 => pure none
  | retry + 1 => do
    match ← alloc with
    | none => pure none
    | some b => do
      set_vars fun v => { v with arp_listen_handler := true }
      enet_send b
      done_buf b
      Prog.run (S := NetSig) (.arp_wait ipaddr retry)

/-- The loop that polls for about a second. -/
def arp_wait (ipaddr retry : ℕ) : NetProg (Option ℕ) := do
  let time_over ← input fun i => match i with
    | .time_over => true
    | _ => false
  if time_over then
    set_vars fun v => { v with arp_listen_handler := false }
    Prog.run (S := NetSig) (.arp_request ipaddr retry)
  else
    let _ ← Prog.run (S := NetSig) .enet_poll
    let v ← look .other NetState.vars
    match arp_chk_entry v ipaddr with
    | some i => do
      set_vars fun v => { v with arp_listen_handler := false }
      pure (some i)
    | none => Prog.run (S := NetSig) (.arp_wait ipaddr retry)

/-! ## `icmp.c` and `udp.c` -/

/-- `icmp_ping_listener` -/
def icmp_ping_listener (b : ℕ) : NetProg Unit := do
  on_vars .other fun _ s => ((), { s.vars with
    icmp_listen_arg := if s.vars.icmp_listen_arg ≠ (s.bufs.frame b).icmp_ident then -1 else 0 })
  free b

/-- `icmp_input` -/
def icmp_input (b : ℕ) : NetProg Unit := do
  let s ← look .other id
  let f := s.bufs.frame b
  let len := f.len - ETH_HDR_SIZE - IP_HDR_SIZE
  if f.icmp_type = ICMP_TYPE_ECHOREQUEST ∧ f.icmp_code = 0 then
    if ip_csum (fun i => f.data (ETH_HDR_SIZE + IP_HDR_SIZE + i)) len 0 ≠ 0 then free b
    else ip_output b
  else if f.icmp_type = ICMP_TYPE_ECHOREPLY ∧ s.vars.icmp_listen_handler = true then
    icmp_ping_listener b
  else free b

/-- `udp_input`, with the buffer that it frees at its end. -/
def udp_input_buf (b : ℕ) : NetProg Unit := do
  on_vars .other fun _ s => ((), { s.vars with
    udp_sock := (udp_input s.vars.my_ip_addr s.vars.udp_sock (s.bufs.frame b)).1 })
  free b

/-! ## `tcp.c` -/

/-- Read a socket. -/
def get_sock (i : ℕ) : NetProg TCP_SOCK_T := look .other fun s => s.vars.tcp_socks i

def set_sock (i : ℕ) (g : TCP_SOCK_T → TCP_SOCK_T) : NetProg Unit :=
  set_vars fun v => { v with tcp_socks := Function.update v.tcp_socks i (g (v.tcp_socks i)) }

def close_sock (i : ℕ) : NetProg Unit :=
  set_vars fun v => { v with tcp_socks := tcp_close v.tcp_socks i }

/-- `tcp_output`; zero or minus one. -/
def tcp_output (i : ℕ) (len : ℤ) : NetProg ℤ := do
  match ← alloc with
  | none => pure (-1)
  | some b =>
    if TCP_DATA_MAX_SIZE < as_count len then do
      free b
      done_buf b
      pure (-1)
    else do
      set_sock i fun sock =>
        if sock.flag / TCP_FLAG_SYN % 2 = 1 then { sock with data_bytes := 0 } else sock
      ip_output b
      done_buf b
      pure 0

/-- `tcp_sendto` to the address of the socket; whether the result is negative. -/
def tcp_sendto (i : ℕ) (len : ℤ) : NetProg Bool := do
  let sock ← get_sock i
  match ← arp_lookup sock.from_ip with
  | none => pure true
  | some _ => do
    let _ ← tcp_output i len
    input fun i => match i with
      | .negative => true
      | _ => false

/-- `if (tcp_sendto(..) < 0) { tcp_close(sock); goto tcp_input_end; }`; whether
it went there. -/
def tcp_reply (i : ℕ) : NetProg Bool := do
  if ← tcp_sendto i 0 then
    close_sock i
    pure true
  else pure false

/-- The web server. -/
def rx_http_packet (i : ℕ) : NetProg Unit := do
  let a ← input fun i => match i with
    | .http a => a
    | _ => .done
  match a with
  | .done => pure ()
  | .change g => do
    set_sock i g
    let _ ← Prog.run (S := NetSig) (.rx_http_packet i)
    pure ()
  | .send len => do
    let _ ← tcp_sendto i len
    let _ ← Prog.run (S := NetSig) (.rx_http_packet i)
    pure ()
  | .poll => do
    let _ ← Prog.run (S := NetSig) .enet_poll
    let _ ← Prog.run (S := NetSig) (.rx_http_packet i)
    pure ()

/-- The answer of a closed socket, which is closed again. -/
def tcp_send_reset (i : ℕ) (f : Frame) : NetProg Unit := do
  if f.has TCP_FLAG_RST then close_sock i
  else
    set_sock i (tcp_reset f)
    if ← tcp_reply i then pure () else close_sock i

def tcp_listen (i : ℕ) (f : Frame) : NetProg Unit :=
  if f.has TCP_FLAG_SYN then do
    set_sock i fun sock =>
      { sock with
        local_seq := TCP_START_SEQ
        remote_seq := (f.tcp_seq + 1) % ByteMem.W
        flag := TCP_FLAG_ACK + TCP_FLAG_SYN
        old_seq := 0
        new_seq := 0 }
    if ← tcp_reply i then pure () else set_sock i fun sock => { sock with state := .SYN_RECVD }
  else do
    set_sock i fun sock => { sock with post_data := 0 }
    tcp_send_reset i f

def tcp_syn_sent (i : ℕ) (f : Frame) : NetProg Unit :=
  if f.has TCP_FLAG_SYN then do
    set_sock i fun sock => { sock with flag := TCP_FLAG_ACK }
    let sock ← get_sock i
    if f.has TCP_FLAG_ACK ∧ f.tcp_ack_raw = (sock.local_seq + 1) % ByteMem.W then
      set_sock i fun sock =>
        { sock with
          state := .ESTABLISHED
          local_seq := (sock.local_seq + 1) % ByteMem.W
          remote_seq := ntohl (f.tcp_seq_raw + 1) }
      let _ ← tcp_reply i
      pure ()
    else
      set_sock i fun sock =>
        { sock with remote_seq := (sock.remote_seq + 1) % ByteMem.W, state := .SYN_RECVD }
  else pure ()

def tcp_syn_recvd (i : ℕ) (f : Frame) : NetProg Unit := do
  let sock ← get_sock i
  if f.has TCP_FLAG_RST then close_sock i
  else if f.has TCP_FLAG_SYN then
    set_sock i fun sock => { sock with flag := TCP_FLAG_RST + TCP_FLAG_ACK }
    let _ ← tcp_reply i
    pure ()
  else if f.has TCP_FLAG_ACK ∧ f.tcp_ack = (sock.local_seq + 1) % ByteMem.W then
    set_sock i fun sock =>
      { sock with
        flag := TCP_FLAG_ACK
        local_seq := (sock.local_seq + 1) % ByteMem.W
        remote_seq := ((f.tcp_seq + f.tcp_tot_len - 4 * f.tcp_hdr_len : ℤ) % ByteMem.W).toNat
        state := .ESTABLISHED }
  else pure ()

/-- `ESTABLISHED` and `CLOSE_WAIT`, for a segment with an acknowledgement. -/
def tcp_established (i : ℕ) (f : Frame) : NetProg Unit := do
  set_sock i fun sock => handle_ack f (handle_data f sock)
  if f.has TCP_FLAG_FIN then
    set_sock i fun sock =>
      { sock with
        state := .LAST_ACK
        remote_seq := (sock.remote_seq + 1) % ByteMem.W
        flag := TCP_FLAG_ACK + TCP_FLAG_FIN }
    let _ ← tcp_reply i
    pure ()
  else if f.has TCP_FLAG_RST then close_sock i
  else if 4 * f.tcp_hdr_len < f.tcp_tot_len ∧ f.tcp_dport = TCP_PORT_HTTP then
    set_sock i fun sock => { sock with flag := TCP_FLAG_ACK }
    rx_http_packet i
  else pure ()

/-- `if (tcph->flags & TCP_FLAG_FIN)` of `FIN_WAIT_1`. -/
def tcp_fin_wait_1_fin (i : ℕ) (f : Frame) : NetProg Unit :=
  if f.has TCP_FLAG_FIN then do
    set_sock i fun sock =>
      { sock with
        remote_seq := (sock.remote_seq + 1) % ByteMem.W
        state := .LAST_ACK
        flag := TCP_FLAG_FIN + TCP_FLAG_ACK }
    let _ ← tcp_reply i
    pure ()
  else pure ()

def tcp_fin_wait_1 (i : ℕ) (f : Frame) : NetProg Unit :=
  if f.has TCP_FLAG_FIN ∧ f.has TCP_FLAG_ACK then do
    set_sock i (handle_ack f)
    let sock ← get_sock i
    if f.tcp_seq_raw = sock.local_seq then
      set_sock i fun sock =>
        let sock :=
          { sock with remote_seq := (sock.remote_seq + 1) % ByteMem.W, flag := TCP_FLAG_ACK }
        if (sock.local_seq + 1) % ByteMem.W ≤ f.tcp_ack_raw then
          { sock with local_seq := (sock.local_seq + 1) % ByteMem.W, state := .TIME_WAIT }
        else { sock with state := .CLOSING }
      if ← tcp_reply i then pure () else tcp_fin_wait_1_fin i f
    else tcp_fin_wait_1_fin i f
  else if f.has TCP_FLAG_ACK then do
    set_sock i fun sock =>
      if f.tcp_ack_raw = (sock.local_seq + 1) % ByteMem.W ∧ f.tcp_seq_raw = sock.remote_seq ∧
          sock.data_bytes = 0 then
        { sock with local_seq := (sock.local_seq + 1) % ByteMem.W, state := .FIN_WAIT_2 }
      else sock
    tcp_fin_wait_1_fin i f
  else tcp_fin_wait_1_fin i f

def tcp_fin_wait_2 (i : ℕ) (f : Frame) : NetProg Unit := do
  set_sock i (handle_data f)
  let sock ← get_sock i
  if f.has TCP_FLAG_FIN ∧ f.has TCP_FLAG_ACK ∧ f.tcp_ack_raw = sock.local_seq ∧
      f.tcp_seq_raw = sock.remote_seq then
    set_sock i fun sock =>
      { sock with flag := TCP_FLAG_ACK, remote_seq := (sock.remote_seq + 1) % ByteMem.W }
    if ← tcp_reply i then pure () else set_sock i fun sock => { sock with state := .TIME_WAIT }
  else pure ()

def tcp_closing (i : ℕ) (f : Frame) : NetProg Unit :=
  if f.has TCP_FLAG_ACK ∧ !f.has TCP_FLAG_FIN then
    set_sock i fun sock =>
      let sock := handle_ack f sock
      if f.tcp_ack_raw = sock.local_seq ∧ f.tcp_seq_raw = sock.remote_seq then
        { sock with state := .TIME_WAIT }
      else sock
  else pure ()

def tcp_closed (i : ℕ) (f : Frame) : NetProg Unit := do
  set_sock i fun sock => { sock with state := .LISTEN, post_data := 0 }
  tcp_send_reset i f

/-- `LAST_ACK`, which goes on to `CLOSED`. -/
def tcp_last_ack (i : ℕ) (f : Frame) : NetProg Unit := do
  set_sock i fun sock =>
    if f.has TCP_FLAG_ACK then
      let sock := handle_ack f sock
      if f.tcp_ack = (sock.local_seq + 1) % ByteMem.W then { sock with state := .CLOSED } else sock
    else sock
  if f.has TCP_FLAG_FIN then
    set_sock i fun sock => { sock with flag := TCP_FLAG_ACK + TCP_FLAG_FIN }
    if ← tcp_reply i then pure () else tcp_closed i f
  else
    set_sock i fun sock =>
      if f.tcp_ack_raw = (sock.local_seq + 1) % ByteMem.W ∧ f.tcp_seq_raw = sock.remote_seq then
        { sock with state := .CLOSED }
      else sock
    tcp_closed i f

/-- `TIME_WAIT`. As `==` binds more tightly than `&`, the test is for a FIN. -/
def tcp_time_wait (i : ℕ) (f : Frame) : NetProg Unit :=
  if f.has TCP_FLAG_FIN then do
    set_sock i fun sock => { sock with flag := TCP_FLAG_ACK }
    if ← tcp_reply i then pure () else set_sock i fun sock => { sock with state := .CLOSED }
  else pure ()

/-- The `switch` of `tcp_input`, but for a segment that ends it by `return`. -/
def tcp_process (i : ℕ) (f : Frame) : TcpState → NetProg Unit
  | .zero => pure ()
  | .LISTEN => tcp_listen i f
  | .SYN_SENT => tcp_syn_sent i f
  | .SYN_RECVD => tcp_syn_recvd i f
  | .ESTABLISHED => tcp_established i f
  | .CLOSE_WAIT => tcp_established i f
  | .FIN_WAIT_1 => tcp_fin_wait_1 i f
  | .FIN_WAIT_2 => tcp_fin_wait_2 i f
  | .CLOSING => tcp_closing i f
  | .LAST_ACK => tcp_last_ack i f
  | .CLOSED => tcp_closed i f
  | .TIME_WAIT => tcp_time_wait i f

/-- How `tcp_input` goes on once it has looked for the socket: it drops the
segment, or is in the `switch`, at the `return` or not. -/
inductive TcpEntry
  | drop
  | must_ack (i : ℕ)
  | process (i : ℕ) (state : TcpState)

/-- The sockets that the timer has marked are `del_timeout`. -/
def tcp_expire (e : ℕ → Bool) (socks : ℕ → TCP_SOCK_T) (i : ℕ) : TCP_SOCK_T :=
  if (socks i).used = 1 ∧ e i = true ∧ (socks i).state ≠ .ESTABLISHED ∧
      (socks i).state ≠ .CLOSE_WAIT then
    { socks i with del_timeout := 1 }
  else socks i

/-- `tcp_input` up to the `switch`: the socket of the segment, and the sockets
with its address filled in. -/
def tcp_enter (v : NetVars) (e : ℕ → Bool) (f : Frame) : TcpEntry × (ℕ → TCP_SOCK_T) :=
  if !tcp_chksum_ok f then (.drop, v.tcp_socks)
  else
    match tcp_lookup v.my_ip_addr f (tcp_expire e v.tcp_socks) with
    | (socks, none) => (.drop, socks)
    | (socks, some i) =>
      let sock := socks i
      if sock.state ≠ .SYN_RECVD ∧ f.has TCP_FLAG_RST then
        (.drop, Function.update socks i { sock with state := .CLOSED })
      else
        let sock := { sock with from_ip := f.saddr, remote_port := f.tcp_sport }
        if sock.state = .ESTABLISHED ∨ sock.state = .CLOSE_WAIT then
          let socks := Function.update socks i { sock with new_seq := f.tcp_seq }
          if f.has TCP_FLAG_ACK then (.process i sock.state, socks) else (.must_ack i, socks)
        else (.process i sock.state, Function.update socks i sock)

/-- What the timer has found. -/
def expired : NetInput → ℕ → Bool
  | .expired e => e
  | _ => fun _ => false

/-- `tcp_input`. The branch `must ack sommat` returns without freeing the buffer. -/
def tcp_input (b : ℕ) : NetProg Unit := do
  let r ← on_vars (.tcp_input b) fun i s =>
    let r := tcp_enter s.vars (expired i) (s.bufs.frame b)
    ((r.1, s.bufs.frame b), { s.vars with tcp_socks := r.2 })
  match r.1 with
  | .drop => free b
  | .must_ack _ => pure ()
  | .process i state => do
    tcp_process i r.2 state
    free b

/-! ## `ip_input` and `enet_poll` -/

/-- `ip_input`. TCP is built in with `BOARD_SUPPORT_WEB` only, and then nothing
frees the buffer unless the web server is on. -/
def ip_input (b : ℕ) : NetProg Unit := do
  let s ← look (.ip_input b) id
  let iph := s.bufs.frame b
  if !ip_input_accepts s.vars.my_ip_addr iph then free b
  else if iph.protocol = IP_PROTO_ICMP then icmp_input b
  else if iph.protocol = IP_PROTO_TCP ∧ s.vars.board_support_web = true then
    if s.vars.web_on = 1 then tcp_input b else pure ()
  else if iph.protocol = IP_PROTO_UDP then udp_input_buf b
  else free b

/-- A packet that `enet_poll` has taken from the receive queue. -/
def enet_process (b : ℕ) : NetProg Unit := do
  let eth_type ← look .other fun s => (s.bufs.frame b).eth_type
  if eth_type = ETH_TYPE_IP then ip_input b
  else if eth_type = ETH_TYPE_ARP then arp_input b
  else free b

/-- The loop of `enet_poll`. -/
def poll_rcvq : NetProg (Option ℕ) := do
  let total ← peek_rcvq
  if total = 0 then pure none
  else
    match ← get_rcvq with
    | none => pure none
    | some b => do
      enet_process b
      done_buf b
      Prog.run (S := NetSig) .poll_rcvq

/-- `sl2312_emac_deliver`: the frames that the driver has. -/
def deliver : NetProg (Option ℕ) := do
  let f ← on_vars .deliver fun i s => (match i with
    | .frame f => some f
    | _ => none, s.vars)
  match f with
  | some f => do
    enet_input f
    Prog.run (S := NetSig) .deliver
  | none => pure none

/-- `enet_poll` -/
def enet_poll : NetProg (Option ℕ) := do
  let initialized ← look .other fun s => s.vars.enet_initialized
  if initialized then
    let _ ← Prog.run (S := NetSig) .deliver
    Prog.run (S := NetSig) .poll_rcvq
  else pure none

/-- The program polls, and changes variables, as it likes. -/
def main_loop : NetProg (Option ℕ) := do
  let poll ← on_vars .top fun i s => match i with
    | .poll => (true, s.vars)
    | .change g => (false, g s.vars)
    | _ => (false, s.vars)
  let _ ← if poll then Prog.run (S := NetSig) .enet_poll else pure none
  Prog.run (S := NetSig) .main

def net_body : NetProc → NetProg (Option ℕ)
  | .main => main_loop
  | .enet_poll => enet_poll
  | .deliver => deliver
  | .poll_rcvq => poll_rcvq
  | .arp_request ipaddr retry => arp_request ipaddr retry
  | .arp_wait ipaddr retry => arp_wait ipaddr retry
  | .rx_http_packet i => do
    rx_http_packet i
    pure none

end CsBoot.Net
