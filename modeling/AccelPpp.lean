import AccelPpp.Ppp.RestartTimer
import AccelPpp.Ppp.Ccp
import AccelPpp.Pppoe.Sid
import AccelPpp.Ipoe.Lookup
import AccelPpp.L2tp.Auth
import AccelPpp.Auth.Bounds
import AccelPpp.Auth.Identity
import AccelPpp.Ppp.LcpOpened
import AccelPpp.Ppp.Refused
import AccelPpp.Pool.Ipv6
import AccelPpp.Radius.RoundTrip
import AccelPpp.Radius.Accounting
import AccelPpp.L2tp.Delivery
import AccelPpp.L2tp.Retransmission
import AccelPpp.L2tp.WireRoundTrip
import AccelPpp.Triton.Reload
import AccelPpp.Triton.Interest
import AccelPpp.Sstp.Deframing
import AccelPpp.Pppoe.Padi
import AccelPpp.Ppp.Layers
import AccelPpp.L2tp.SwitchHops
import AccelPpp.Dhcpv6.ServerId
import AccelPpp.L2tp.Inflight
import AccelPpp.Triton.Contexts
import AccelPpp.Triton.Reclamation
import AccelPpp.Pool.Search
import AccelPpp.Radius.FindSession
import AccelPpp.Shaper.Indexes
import AccelPpp.Cli.Tcp
import AccelPpp.Radius.Reply
import AccelPpp.L2tp.SwitchRules
import AccelPpp.Ppp.LcpRequest
import AccelPpp.Radius.Interim
import AccelPpp.Radius.Password
import AccelPpp.Pptp.Control
import AccelPpp.Pppoe.Dpado
import AccelPpp.Pppoe.Interface
import AccelPpp.Dhcpv6.Aftr
import AccelPpp.Ipoe.Range
import AccelPpp.Ipoe.Checksum
import AccelPpp.Triton.ConfLost
