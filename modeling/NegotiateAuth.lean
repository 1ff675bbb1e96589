import NegotiateAuth.Proofs.Challenge.Lists
import NegotiateAuth.Proofs.Challenge.Neighbours
import NegotiateAuth.Proofs.Exchange.Peers
import NegotiateAuth.Proofs.Exchange.ServerToken
import NegotiateAuth.Proofs.Host
import NegotiateAuth.Proofs.Session.Indifference
import NegotiateAuth.Proofs.Session.Replies
import NegotiateAuth.Session.Exchange
import NegotiateAuth.Session.Resolver
import NegotiateAuth.Session.Run
